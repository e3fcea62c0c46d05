import SqlCodeGenerator.AdminInterface

/-!
# Blocked addresses

`addr_blocked` compares the whole address with the entries of the list, and
`block_addr` stores what fits an entry of 64 characters.  An address of 64 characters or
more is therefore never found again.

* `BlockSpec`, `blockAddr_spec`: the three results of a request;
* `ServiceEvent.step_blocked`: a step changes the list by the request it receives, or not
  at all;
* `blocks_effective_iff`: along a run of the admin interface all blocks stay effective
  exactly when every address fits an entry or meets a full list.
-/

namespace SqlCodeGenerator

open Library

/-! ## One request -/

/-- The results of `block_addr`. -/
inductive BlockSpec (blocked : Blocklist) :
    Option CString → Blocklist × Except CString CString → Prop where
  /-- No address, or no room. -/
  | refused {addr : Option CString} (text : CString)
      (hrefused : ∀ a, addr = some a → a ≠ [] → maxBlockedAddr ≤ blocked.count) :
      BlockSpec blocked addr (blocked, .error text)
  | known {a : CString} (text : CString) (hknown : addrBlocked blocked a = true) :
      BlockSpec blocked (some a) (blocked, .ok text)
  | stored {a : CString} {blocked' : Blocklist} (text : CString)
      (hnew : addrBlocked blocked a = false) (hroom : blocked.count < maxBlockedAddr)
      (hitems : blocked'.items = blocked.items ++ [snprintf a]) :
      BlockSpec blocked (some a) (blocked', .ok text)

theorem blockAddr_spec (blocked : Blocklist) (addr : Option CString) :
    BlockSpec blocked addr (blockAddr blocked addr) := by
  unfold blockAddr
  split
  · exact .refused _ fun a ha => by cases ha
  · exact .refused _ fun a ha hne => absurd (Option.some.inj ha).symm hne
  · next a _ =>
      split
      · next hknown => exact .known _ hknown
      · next hnew =>
          split
          · next hfull => exact .refused _ fun _ _ _ => CountedArray.push?_eq_none_iff.mp hfull
          · next blocked' hpush =>
              obtain ⟨hroom, hitems⟩ := CountedArray.push?_eq_some_iff.mp hpush
              exact .stored _ (Bool.eq_false_iff.mpr hnew) hroom hitems

theorem addrBlocked_iff {blocked : Blocklist} {a : CString} :
    addrBlocked blocked a = true ↔ a ∈ blocked.items.map CBuf.chars := by
  unfold addrBlocked
  simp only [List.any_eq_true, decide_eq_true_eq, List.mem_map]

/-- An address that does not fit an entry is not found. -/
theorem addrBlocked_of_long {blocked : Blocklist} {a : CString} (h : 64 ≤ a.length) :
    addrBlocked blocked a = false := by
  rw [← Bool.not_eq_true, addrBlocked_iff]
  intro hmem
  obtain ⟨entry, -, rfl⟩ := List.mem_map.mp hmem
  exact absurd entry.fits (Nat.not_lt.mpr h)

/-- An address that fits an entry is stored whole. -/
theorem chars_snprintf_of_fits {a : CString} (h : a.length < 64) :
    (snprintf a : CBuf 64).chars = a :=
  List.take_of_length_le (Nat.le_sub_one_of_lt h)

/-! ## The list along a run -/

/-- The address that a step asks to block: a payload of no bytes is the null pointer. -/
def ServiceEvent.blockRequest? : ServiceEvent → Option (Option CString)
  | .receive _ opId payload =>
      if opId = opAdminBlock then some ((received payload).map cstr) else none
  | _ => none

/-- Did `block_addr` return 0? -/
def Blocklist.accepts (blocked : Blocklist) (addr : Option CString) : Bool :=
  (blockAddr blocked addr).2.isOk

/-- The addresses that `block_addr` has returned 0 for. -/
def recordBlock (s : Service) (e : ServiceEvent) (accepted : List CString) : List CString :=
  match e.blockRequest? with
  | some (some a) => if Blocklist.accepts s.blocked (some a) then accepted ++ [a] else accepted
  | _ => accepted

/-- A step of the service beside the addresses accepted. -/
def blockStep (cfg : AdminConfig) :
    Service × List CString → ServiceEvent → Option (Service × List CString) :=
  withHistory (ServiceEvent.step cfg) recordBlock

/-- Every address accepted is blocked, no address is in the list twice, and the list keeps
its bound. -/
structure BlocksEffective (t : Service × List CString) : Prop where
  effective : ∀ a ∈ t.2, addrBlocked t.1.blocked a = true
  distinct : (t.1.blocked.items.map CBuf.chars).Nodup
  bounded : t.1.blocked.count ≤ maxBlockedAddr

/-- An address fits an entry of the list, or the list is full. -/
def Storable (t : Service × List CString) (e : ServiceEvent) : Prop :=
  ∀ a, e.blockRequest? = some (some a) → a.length < 64 ∨ maxBlockedAddr ≤ t.1.blocked.count

/-- A request that `block_addr` returns -1 for leaves the list as it is. -/
def RefusalKeepsList (cfg : AdminConfig) (t : Service × List CString) (e : ServiceEvent) : Prop :=
  ∀ addr t', e.blockRequest? = some addr → blockStep cfg t e = some t' →
    Blocklist.accepts t.1.blocked addr = false → t'.1.blocked = t.1.blocked

/-! ### What a step does to the list -/

theorem Service.handleMessage_blocked (s : Service) (now fd : Int) (opId : UInt32)
    (payload : List UInt8) :
    (s.handleMessage now fd opId payload).blocked =
      if opId = opAdminBlock then (blockAddr s.blocked ((received payload).map cstr)).1
      else s.blocked := by
  have hspec := adminOperation_spec now fd opId (received payload)
    ⟨s.server.shared, s.blocked, s.adminFd, now⟩
  unfold handleMessage handleAdminMessage
  generalize adminOperation now fd opId (received payload)
    ⟨s.server.shared, s.blocked, s.adminFd, now⟩ = result at hspec
  cases hspec with
  | bye hop => exact (if_neg (hop ▸ by decide)).symm
  | login hop htoken => exact (if_neg (hop ▸ by decide)).symm
  | report hop => exact (if_neg (hop ▸ by decide)).symm
  | disconnect clientId hop hparse hconnected => exact (if_neg (hop ▸ by decide)).symm
  | cancel clientId hop haccepted => exact (if_neg (hop ▸ by decide)).symm
  | block blocked text hop hblock =>
      rw [if_pos hop]
      exact (congrArg Prod.fst hblock).symm
  | refuse text hop hunprivileged hlogin =>
      by_cases hblock : opId = opAdminBlock
      · rw [if_pos hblock]
        exact (blockAddr_fst_eq_iff.mpr (hunprivileged.2.2.2 hblock)).symm
      · exact (if_neg hblock).symm

theorem Service.removePollfd_blocked {s s' : Service} {i : Nat}
    (h : s.removePollfd i = .ok s') : s'.blocked = s.blocked := by
  unfold removePollfd at h
  split at h
  · obtain rfl := Outcome.ok.inj h
    rfl
  · cases h

theorem Service.acceptAdmin_blocked {s s' : Service} {now fd : Int}
    (h : s.acceptAdmin now fd = .ok s') : s'.blocked = s.blocked := by
  unfold acceptAdmin at h
  split at h
  · obtain rfl := Outcome.ok.inj h
    rfl
  split at h
  · obtain rfl := Outcome.ok.inj h
    rfl
  split at h
  · cases h
  · obtain rfl := Outcome.ok.inj h
    rfl

theorem Service.checkTimeout_blocked {s s' : Service} {cfg : AdminConfig} {now : Int}
    (h : s.checkTimeout cfg now = .ok s') : s'.blocked = s.blocked := by
  unfold checkTimeout at h
  split at h
  · split at h
    · obtain rfl := Outcome.ok.inj h
      rfl
    · obtain ⟨middle, hremove, hdrop⟩ := Outcome.bind_eq_ok_iff.mp h
      obtain rfl := Outcome.ok.inj hdrop
      have hblocked := removePollfd_blocked hremove
      exact hblocked
  · obtain rfl := Outcome.ok.inj h
    rfl

theorem Service.handleMessage_blockRequest (s : Service) (now fd : Int) (opId : UInt32)
    (payload : List UInt8) :
    (s.handleMessage now fd opId payload).blocked =
      (((ServiceEvent.receive now opId payload).blockRequest?.map fun addr =>
        (blockAddr s.blocked addr).1).getD s.blocked) := by
  rw [s.handleMessage_blocked now fd opId payload, ServiceEvent.blockRequest?]
  split
  · rfl
  · rfl

/-- A step leaves the list as it is, or receives a request and changes it by that. -/
theorem ServiceEvent.step_blocked {cfg : AdminConfig} {s s' : Service} {e : ServiceEvent}
    (h : e.step cfg s = some s') :
    s'.blocked =
      ((e.blockRequest?.map fun addr => (blockAddr s.blocked addr).1).getD s.blocked) := by
  cases step_spec h with
  | server e after hordinary hstep => rfl
  | poll now ready middle hpoint hcheck =>
      have hblocked := Service.checkTimeout_blocked hcheck
      exact hblocked
  | next point => rfl
  | acceptFails now i entry hentry => rfl
  | accept now fd i entry middle hentry hfd haccept =>
      have hblocked := Service.acceptAdmin_blocked haccept
      exact hblocked
  | receiveFails i entry middle hentry hremove =>
      have hblocked := Service.removePollfd_blocked hremove
      show middle.blocked = s.blocked
      rw [hblocked]
      split
      · rfl
      · rfl
  | bye now opId payload i entry middle hentry hgone hremove =>
      have hblocked := Service.removePollfd_blocked hremove
      exact hblocked.trans (s.handleMessage_blockRequest now entry.fd opId payload)
  | receive now opId payload i entry hentry hstays =>
      exact s.handleMessage_blockRequest now entry.fd opId payload

/-! ## Blocks along a run -/

/-- What a step that leaves a state does to the list and to the addresses accepted. -/
theorem blockStep_cases {cfg : AdminConfig} {t t' : Service × List CString} {e : ServiceEvent}
    (h : blockStep cfg t e = some t') :
    (t'.1.blocked = t.1.blocked ∧ t'.2 = t.2 ∧
        ∀ a, e.blockRequest? = some (some a) → a = [] ∨ maxBlockedAddr ≤ t.1.blocked.count) ∨
      ∃ a, e.blockRequest? = some (some a) ∧ t'.2 = t.2 ++ [a] ∧
        (addrBlocked t.1.blocked a = true ∧ t'.1.blocked = t.1.blocked ∨
          addrBlocked t.1.blocked a = false ∧ t.1.blocked.count < maxBlockedAddr ∧
            t'.1.blocked.items = t.1.blocked.items ++ [snprintf a]) := by
  obtain ⟨s', hstep, rfl⟩ := Option.map_eq_some_iff.mp h
  have hblocked := ServiceEvent.step_blocked hstep
  cases hrequest : e.blockRequest? with
  | none =>
      rw [hrequest] at hblocked
      refine Or.inl ⟨hblocked, ?_, fun a ha => by cases ha⟩
      simp only [recordBlock, hrequest]
  | some addr =>
      rw [hrequest] at hblocked
      have hspec := blockAddr_spec t.1.blocked addr
      have haccepts :
          Blocklist.accepts t.1.blocked addr = (blockAddr t.1.blocked addr).2.isOk := rfl
      change s'.blocked = (blockAddr t.1.blocked addr).1 at hblocked
      generalize blockAddr t.1.blocked addr = result at hspec haccepts hblocked
      cases hspec with
      | refused text hrefused =>
          refine Or.inl ⟨hblocked, ?_, fun a ha => ?_⟩
          · cases addr with
            | none => simp only [recordBlock, hrequest]
            | some a => simp only [recordBlock, hrequest, haccepts]; rfl
          · by_cases hempty : a = []
            · exact Or.inl hempty
            · exact Or.inr (hrefused a (Option.some.inj ha) hempty)
      | @known a text hknown =>
          refine Or.inr ⟨a, rfl, ?_, Or.inl ⟨hknown, hblocked⟩⟩
          simp only [recordBlock, hrequest, haccepts]
          rfl
      | @stored a blocked' text hnew hroom hitems =>
          refine Or.inr ⟨a, rfl, ?_, Or.inr ⟨hnew, hroom, hblocked ▸ hitems⟩⟩
          simp only [recordBlock, hrequest, haccepts]
          rfl

/-- A step keeps all blocks effective exactly when its address is storable. -/
theorem blockStep_effective_iff {cfg : AdminConfig} {t t' : Service × List CString}
    {e : ServiceEvent} (ht : BlocksEffective t) (h : blockStep cfg t e = some t') :
    BlocksEffective t' ↔ Storable t e := by
  rcases blockStep_cases h with ⟨hblocked, haccepted, hreason⟩ |
    ⟨a, hrequest, haccepted, ⟨hknown, hblocked⟩ | ⟨hnew, hroom, hitems⟩⟩
  · refine iff_of_true ⟨?_, ?_, ?_⟩ fun a ha => ?_
    · rw [hblocked, haccepted]
      exact ht.effective
    · rw [hblocked]
      exact ht.distinct
    · rw [hblocked]
      exact ht.bounded
    · rcases hreason a ha with rfl | hfull
      · exact Or.inl (by decide)
      · exact Or.inr hfull
  · -- an address that is found fits an entry
    refine iff_of_true ⟨?_, ?_, ?_⟩ fun b hb => ?_
    · rw [hblocked, haccepted]
      intro b hb
      rcases List.mem_append.mp hb with hb | hb
      · exact ht.effective b hb
      · obtain rfl := List.mem_singleton.mp hb
        exact hknown
    · rw [hblocked]
      exact ht.distinct
    · rw [hblocked]
      exact ht.bounded
    · obtain rfl : a = b := Option.some.inj (Option.some.inj (hrequest.symm.trans hb))
      refine Or.inl (Nat.lt_of_not_le fun hlong => ?_)
      rw [addrBlocked_of_long hlong] at hknown
      cases hknown
  · constructor
    -- an address that is cut is not found again
    · intro ht' b hb
      obtain rfl : a = b := Option.some.inj (Option.some.inj (hrequest.symm.trans hb))
      refine Or.inl (Nat.lt_of_not_le fun hlong => ?_)
      have hfound := ht'.effective a (by simp [haccepted])
      rw [addrBlocked_of_long hlong] at hfound
      cases hfound
    -- the address is stored as it is, behind the others
    · intro hstorable
      have hfits : a.length < 64 :=
        (hstorable a hrequest).resolve_right (Nat.not_le.mpr hroom)
      have hchars :
          t'.1.blocked.items.map CBuf.chars = t.1.blocked.items.map CBuf.chars ++ [a] := by
        rw [hitems, List.map_append, List.map_singleton, chars_snprintf_of_fits hfits]
      refine ⟨fun b hb => ?_, ?_, t'.1.blocked.fits⟩
      · rw [addrBlocked_iff, hchars, List.mem_append]
        rw [haccepted, List.mem_append] at hb
        rcases hb with hb | hb
        · exact Or.inl (addrBlocked_iff.mp (ht.effective b hb))
        · exact Or.inr hb
      · rw [hchars, ← List.concat_eq_append, List.nodup_concat]
        refine ⟨fun hmem => ?_, ht.distinct⟩
        rw [addrBlocked_iff.mpr hmem] at hnew
        cases hnew

/-- A refusal keeps the list. -/
theorem refusalKeepsList (cfg : AdminConfig) (t : Service × List CString) (e : ServiceEvent) :
    RefusalKeepsList cfg t e := by
  intro addr t' hrequest h hrefused
  obtain ⟨s', hstep, rfl⟩ := Option.map_eq_some_iff.mp h
  have hblocked := ServiceEvent.step_blocked hstep
  rw [hrequest] at hblocked
  have hspec := blockAddr_spec t.1.blocked addr
  rw [Blocklist.accepts] at hrefused
  change s'.blocked = (blockAddr t.1.blocked addr).1 at hblocked
  generalize blockAddr t.1.blocked addr = result at hspec hrefused hblocked
  cases hspec with
  | refused text hreason => exact hblocked
  | known text hknown => cases hrefused
  | stored text hnew hroom hitems => cases hrefused

/-- Along a run all blocks stay effective, without an address twice, exactly when every
address that is asked for fits an entry or meets a full list; and a refusal keeps the list. -/
theorem blocks_effective_iff (cfg : AdminConfig) (now : Int) (events : List ServiceEvent) :
    (Throughout (blockStep cfg) BlocksEffective (.init cfg now, []) events ↔
      EveryStep (blockStep cfg) (fun t e => (blockStep cfg t e).isSome → Storable t e)
        (.init cfg now, []) events) ∧
      EveryStep (blockStep cfg) (RefusalKeepsList cfg) (.init cfg now, []) events := by
  have hinit : BlocksEffective (.init cfg now, []) :=
    ⟨fun a ha => (by cases ha), List.nodup_nil, Nat.zero_le _⟩
  have hstep : ∀ (t : Service × List CString) e t', True → BlocksEffective t →
      blockStep cfg t e = some t' → (BlocksEffective t' ↔ Storable t e) :=
    fun _ _ _ _ ht h => blockStep_effective_iff ht h
  refine ⟨throughout_iff_everyStep (fun _ _ _ _ _ => trivial) hstep trivial hinit, ?_⟩
  exact everyStep_iff.mpr fun _ e _ t _ _ => refusalKeepsList cfg t e

/-! ### An address that does not fit -/

/-- An address of 64 characters. -/
def longAddress : List UInt8 := List.replicate 64 97

/-- The admin connects and asks twice to block the address. -/
def longBlockEvents : List ServiceEvent :=
  [.poll 0 (fun k => decide (k.val = 0)), .accept 0 (some 5), .next, .next,
    .poll 0 (fun k => decide (k.val = 1)), .next, .receive 0 opAdminBlock longAddress, .next,
    .poll 0 (fun k => decide (k.val = 1)), .next, .receive 0 opAdminBlock longAddress]

/-- Both requests are accepted.  The address is not blocked, and the list holds the same
shorter one twice. -/
theorem longAddress_not_blocked :
    (runFrom (blockStep ⟨3, 60⟩) (.init ⟨3, 60⟩ 0, []) longBlockEvents).map (fun t =>
        (t.2, addrBlocked t.1.blocked (cstr longAddress),
          t.1.blocked.items.map CBuf.chars)) =
      some ([cstr longAddress, cstr longAddress], false,
        [(cstr longAddress).take 63, (cstr longAddress).take 63]) ∧
      ¬ Throughout (blockStep ⟨3, 60⟩) BlocksEffective (.init ⟨3, 60⟩ 0, []) longBlockEvents := by
  have hrun : (runFrom (blockStep ⟨3, 60⟩) (.init ⟨3, 60⟩ 0, []) longBlockEvents).map (fun t =>
        (t.2, addrBlocked t.1.blocked (cstr longAddress),
          t.1.blocked.items.map CBuf.chars)) =
      some ([cstr longAddress, cstr longAddress], false,
        [(cstr longAddress).take 63, (cstr longAddress).take 63]) := by decide +kernel
  refine ⟨hrun, fun h => ?_⟩
  obtain ⟨t, hlast, hseen⟩ := Option.map_eq_some_iff.mp hrun
  have hdistinct := (h longBlockEvents [] t (List.append_nil _).symm hlast).distinct
  rw [(Prod.mk.inj (Prod.mk.inj hseen).2).2] at hdistinct
  exact absurd hdistinct (by decide +kernel)

end SqlCodeGenerator
