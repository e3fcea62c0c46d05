import SqlCodeGenerator.JobQueries
import SqlCodeGenerator.Library.Writes

/-!
# The configuration file

`cfg_load_file` of `server.c` has two bodies.  With libconfig it looks the three keys of
the group `server` up; without it, it goes through the text with `fgets` and takes every
piece that holds a `=` and the name of a key for a setting.

libconfig is not part of the repository: its answers to `config_lookup_int` are a
parameter.  What is printed on `stderr` is left out.

* `applyLine_eq`: what one piece sets;
* `get_cfgLoadLines`: a key has the value that it is set to last.
-/

namespace SqlCodeGenerator

open Library

/-! ## The values of the configuration -/

/-- `RuntimeConfig`, without the path of the file. -/
structure RuntimeConfig where
  serverPort : UInt16
  adminPort : UInt16
  adminTimeoutSec : Int
  deriving DecidableEq

/-- `cfg_defaults`. -/
def cfgDefaults : RuntimeConfig := ⟨18081, 18082, 60⟩

/-- `parse_number`.  A number outside `long` is outside the bounds too. -/
def parseNumber (value : CString) (min max : Int) : Option Int :=
  match strtol value with
  | none => none
  | some (parsed, rest) =>
      if rest ≠ [] ∨ parsed < min ∨ parsed > max then none else some parsed

/-- `apply_port_value`. -/
def applyPortValue (value : CString) (target : UInt16) : UInt16 :=
  match parseNumber value 1 65535 with
  | some parsed => UInt16.ofNat parsed.toNat
  | none => target

/-- `apply_timeout_value`. -/
def applyTimeoutValue (value : CString) (target : Int) : Int :=
  match parseNumber value 1 86400 with
  | some parsed => parsed
  | none => target

/-! ## With libconfig -/

/-- A port that is looked up. -/
def lookedUpPort (found : Option Int) (target : UInt16) : UInt16 :=
  match found with
  | some value => if value > 0 ∧ value ≤ 65535 then UInt16.ofNat value.toNat else target
  | none => target

/-- The timeout that is looked up. -/
def lookedUpTimeout (found : Option Int) (target : Int) : Int :=
  match found with
  | some value => if value > 0 then value else target
  | none => target

/-- `cfg_load_file` with libconfig: `none` when `config_read_file` fails, else the answers
of `config_lookup_int`. -/
def cfgLoadFileLibconfig (file : Option (CString → Option Int)) (cfg : RuntimeConfig) :
    RuntimeConfig :=
  match file with
  | none => cfg
  | some configLookupInt =>
      { serverPort := lookedUpPort (configLookupInt (lit "server.port")) cfg.serverPort
        adminPort := lookedUpPort (configLookupInt (lit "server.admin_port")) cfg.adminPort
        adminTimeoutSec :=
          lookedUpTimeout (configLookupInt (lit "server.admin_timeout")) cfg.adminTimeoutSec }

/-! ## Without it -/

/-- A space or a tab. -/
def isBlank (c : CChar) : Bool := c.val = 32 || c.val = 9

/-- The characters that `strcspn` stops at. -/
def endsValue (c : CChar) : Bool := (lit "; \t\r\n").contains c

/-- `strstr`: does the word stand in the text? -/
def strstr (text word : CString) : Bool := decide (word <:+: text)

/-- `fgets` for at most `n` characters: what is read, and what is left. -/
def fgets : Nat → CString → CString × CString
  | 0, f => ([], f)
  | _ + 1, [] => ([], [])
  | n + 1, c :: f =>
      if c = newline then ([c], f)
      else
        let (line, rest) := fgets n f
        (c :: line, rest)

/-- The size of the buffers `line` and `value`. -/
abbrev lineSize : Nat := 256
abbrev valueSize : Nat := 64

/-- One round of the loop. -/
def applyLine (cfg : RuntimeConfig) (line : CString) : RuntimeConfig :=
  match line.dropWhile fun c => c ≠ chr '=' with
  | [] => cfg
  | _ :: eq =>
      let value := (eq.dropWhile isBlank).takeWhile fun c => !endsValue c
      if value.length = 0 ∨ value.length ≥ valueSize then
        cfg
      else if strstr line (lit "admin_port") then
        { cfg with adminPort := applyPortValue value cfg.adminPort }
      else if strstr line (lit "admin_timeout") then
        { cfg with adminTimeoutSec := applyTimeoutValue value cfg.adminTimeoutSec }
      else if strstr line (lit "port") then
        { cfg with serverPort := applyPortValue value cfg.serverPort }
      else
        cfg

theorem fgets_append (n : Nat) (f : CString) : (fgets n f).1 ++ (fgets n f).2 = f := by
  induction n generalizing f with
  | zero => rfl
  | succ n ih =>
      cases f with
      | nil => rfl
      | cons c f =>
          rw [fgets]
          split
          · rfl
          · exact congrArg (c :: ·) (ih f)

/-- `fgets` reads something. -/
theorem length_fgets_lt (n : Nat) (c : CChar) (f : CString) :
    (fgets (n + 1) (c :: f)).2.length < (c :: f).length := by
  have hparts := congrArg List.length (fgets_append (n + 1) (c :: f))
  have hread : 0 < (fgets (n + 1) (c :: f)).1.length := by
    rw [fgets]
    split
    · exact Nat.one_pos
    · exact Nat.succ_pos _
  rw [List.length_append] at hparts
  omega

/-- The loop over the file. -/
def cfgLoadLines (cfg : RuntimeConfig) (f : CString) : RuntimeConfig :=
  match f with
  | [] => cfg
  | c :: f =>
      cfgLoadLines (applyLine cfg (fgets (lineSize - 1) (c :: f)).1)
        (fgets (lineSize - 1) (c :: f)).2
termination_by f.length
decreasing_by exact length_fgets_lt (lineSize - 2) c f

/-- The pieces that `fgets` reads. -/
def pieces (f : CString) : List CString :=
  match f with
  | [] => []
  | c :: f => (fgets (lineSize - 1) (c :: f)).1 :: pieces (fgets (lineSize - 1) (c :: f)).2
termination_by f.length
decreasing_by exact length_fgets_lt (lineSize - 2) c f

/-- A line that fits the buffer is read whole. -/
theorem fgets_line {n : Nat} {l : CString} (hl : newline ∉ l) (h : l.length < n)
    (rest : CString) : fgets n (l ++ newline :: rest) = (l ++ [newline], rest) := by
  induction l generalizing n with
  | nil =>
      obtain ⟨n, rfl⟩ : ∃ m, n = m + 1 := ⟨n - 1, by rw [List.length_nil] at h; omega⟩
      rw [List.nil_append, fgets, if_pos rfl]
      rfl
  | cons c l ih =>
      obtain ⟨n, rfl⟩ : ∃ m, n = m + 1 := ⟨n - 1, by omega⟩
      have hc : c ≠ newline := fun heq => hl (heq ▸ List.mem_cons_self)
      rw [List.cons_append, fgets, if_neg hc,
        ih (fun hmem => hl (List.mem_cons_of_mem c hmem)) (Nat.lt_of_succ_lt_succ h)]
      rfl

/-- Of a longer one the buffer is filled. -/
theorem fgets_long {n : Nat} {l : CString} (hl : newline ∉ l) (h : n ≤ l.length)
    (rest : CString) : fgets n (l ++ rest) = (l.take n, l.drop n ++ rest) := by
  induction n generalizing l with
  | zero => rfl
  | succ n ih =>
      cases l with
      | nil => cases h
      | cons c l =>
          have hc : c ≠ newline := fun heq => hl (heq ▸ List.mem_cons_self)
          rw [List.cons_append, fgets, if_neg hc,
            ih (fun hmem => hl (List.mem_cons_of_mem c hmem)) (Nat.le_of_succ_le_succ h)]
          rfl

theorem pieces_of_ne_nil {f : CString} (hf : f ≠ []) :
    pieces f = (fgets (lineSize - 1) f).1 :: pieces (fgets (lineSize - 1) f).2 := by
  cases f with
  | nil => exact absurd rfl hf
  | cons c f => rw [pieces]

/-- A line that fits the buffer is one piece. -/
theorem pieces_short {l : CString} (hl : newline ∉ l) (h : l.length < lineSize - 1)
    (rest : CString) : pieces (l ++ newline :: rest) = (l ++ [newline]) :: pieces rest := by
  rw [pieces_of_ne_nil (List.append_ne_nil_of_right_ne_nil l (List.cons_ne_nil newline rest)),
    fgets_line hl h]

/-- The line behind a line is read from its beginning. -/
theorem pieces_line {l : CString} (hl : newline ∉ l) (rest : CString) :
    pieces (l ++ newline :: rest) = pieces (l ++ [newline]) ++ pieces rest := by
  induction hlength : l.length using Nat.strongRecOn generalizing l with
  | _ length ih =>
      by_cases hshort : l.length < lineSize - 1
      · rw [pieces_short hl hshort, pieces_short hl hshort, pieces, List.singleton_append]
      · have hlong : lineSize - 1 ≤ l.length := Nat.le_of_not_lt hshort
        have hpos : 0 < lineSize - 1 := by decide
        have hdrop : newline ∉ l.drop (lineSize - 1) := fun hmem => hl (List.mem_of_mem_drop hmem)
        have hless : (l.drop (lineSize - 1)).length < length := by
          rw [List.length_drop, hlength]
          exact Nat.sub_lt (by omega) (by decide)
        rw [pieces_of_ne_nil (List.append_ne_nil_of_right_ne_nil l (List.cons_ne_nil newline rest)),
          pieces_of_ne_nil (List.append_ne_nil_of_right_ne_nil l (List.cons_ne_nil newline [])),
          fgets_long hl hlong, fgets_long hl hlong]
        exact congrArg ((l.take (lineSize - 1)) :: ·) (ih _ hless hdrop rfl)

/-- The pieces of a text are those of its lines. -/
theorem pieces_lines {lines : List CString} (hlines : ∀ l ∈ lines, newline ∉ l) :
    pieces (lines.flatMap (· ++ [newline])) = lines.flatMap fun l => pieces (l ++ [newline]) := by
  induction lines with
  | nil =>
      rw [List.flatMap_nil, pieces]
      rfl
  | cons l lines ih =>
      rw [List.flatMap_cons, List.flatMap_cons, ← ih fun l' hl' =>
        hlines l' (List.mem_cons_of_mem l hl'), List.append_assoc, List.singleton_append]
      exact pieces_line (hlines l List.mem_cons_self) _

/-- `cfg_load_file` without libconfig: `none` when `fopen` fails, else the text of the
file. -/
def cfgLoadFileFallback (file : Option CString) (cfg : RuntimeConfig) : RuntimeConfig :=
  match file with
  | none => cfg
  | some f => cfgLoadLines cfg f

/-! ## Keys -/

/-- The keys of the group `server`. -/
inductive ConfigKey where
  | port
  | adminPort
  | adminTimeout
  deriving DecidableEq

namespace ConfigKey

/-- The name of the key in the file. -/
def name : ConfigKey → CString
  | port => lit "port"
  | adminPort => lit "admin_port"
  | adminTimeout => lit "admin_timeout"

/-- The largest number that the loop over the text accepts. -/
def most : ConfigKey → Int
  | port => 65535
  | adminPort => 65535
  | adminTimeout => 86400

end ConfigKey

namespace RuntimeConfig

/-- The value of a key. -/
def get (cfg : RuntimeConfig) : ConfigKey → Int
  | .port => cfg.serverPort.toNat
  | .adminPort => cfg.adminPort.toNat
  | .adminTimeout => cfg.adminTimeoutSec

/-- The configuration with the value of a key changed. -/
def set (cfg : RuntimeConfig) (k : ConfigKey) (n : Int) : RuntimeConfig :=
  match k with
  | .port => { cfg with serverPort := UInt16.ofNat n.toNat }
  | .adminPort => { cfg with adminPort := UInt16.ofNat n.toNat }
  | .adminTimeout => { cfg with adminTimeoutSec := n }

theorem ext_get {cfg cfg' : RuntimeConfig} (h : ∀ k, cfg.get k = cfg'.get k) : cfg = cfg' := by
  have hport := h .port
  have hadmin := h .adminPort
  have htimeout := h .adminTimeout
  simp only [get, Nat.cast_inj] at hport hadmin htimeout
  cases cfg
  cases cfg'
  simp only [mk.injEq]
  exact ⟨UInt16.toNat_inj.mp hport, UInt16.toNat_inj.mp hadmin, htimeout⟩

/-- A port fits its field. -/
theorem toNat_port {n : Int} (hpos : 0 < n) (hmost : n ≤ 65535) :
    ((UInt16.ofNat n.toNat).toNat : Int) = n := by
  rw [UInt16.toNat_ofNat', Nat.mod_eq_of_lt (by omega)]
  omega

theorem get_set {cfg : RuntimeConfig} {k k' : ConfigKey} {n : Int} (hpos : 0 < n)
    (hport : k ≠ .adminTimeout → n ≤ 65535) :
    (cfg.set k n).get k' = if k = k' then n else cfg.get k' := by
  cases k with
  | port =>
      cases k' with
      | port => exact toNat_port hpos (hport (by decide))
      | adminPort => rfl
      | adminTimeout => rfl
  | adminPort =>
      cases k' with
      | port => rfl
      | adminPort => exact toNat_port hpos (hport (by decide))
      | adminTimeout => rfl
  | adminTimeout =>
      cases k' with
      | port => rfl
      | adminPort => rfl
      | adminTimeout => rfl

end RuntimeConfig

/-! ## What the loop over the text does -/

/-- The key whose name a piece holds, in the order of the tests. -/
def keyNamed (line : CString) : Option ConfigKey :=
  if strstr line (lit "admin_port") then some .adminPort
  else if strstr line (lit "admin_timeout") then some .adminTimeout
  else if strstr line (lit "port") then some .port
  else none

/-- The key that a piece sets, and the number. -/
def lineSetting (line : CString) : Option (ConfigKey × Int) :=
  match line.dropWhile fun c => c ≠ chr '=' with
  | [] => none
  | _ :: eq =>
      let value := (eq.dropWhile isBlank).takeWhile fun c => !endsValue c
      if value.length = 0 ∨ value.length ≥ valueSize then
        none
      else
        (keyNamed line).bind fun k => (parseNumber value 1 k.most).map (k, ·)

/-- A number that is accepted is in its bounds. -/
theorem parseNumber_bounds {value : CString} {min max n : Int}
    (h : parseNumber value min max = some n) : min ≤ n ∧ n ≤ max := by
  unfold parseNumber at h
  cases hread : strtol value with
  | none => simp only [hread, reduceCtorEq] at h
  | some read =>
      obtain ⟨parsed, rest⟩ := read
      simp only [hread] at h
      by_cases hbad : rest ≠ [] ∨ parsed < min ∨ parsed > max
      · simp only [if_pos hbad, reduceCtorEq] at h
      · simp only [if_neg hbad, Option.some.injEq] at h
        subst h
        omega

/-- What one round does: it sets what the piece sets. -/
theorem applyLine_eq (cfg : RuntimeConfig) (line : CString) :
    applyLine cfg line = ((lineSetting line).map fun (k, n) => cfg.set k n).getD cfg := by
  unfold applyLine lineSetting
  cases line.dropWhile fun c => c ≠ chr '=' with
  | nil => rfl
  | cons _ eq =>
      simp only
      generalize (eq.dropWhile isBlank).takeWhile (fun c => !endsValue c) = value
      by_cases hlength : value.length = 0 ∨ value.length ≥ valueSize
      · rw [if_pos hlength, if_pos hlength]
        rfl
      · rw [if_neg hlength, if_neg hlength]
        unfold keyNamed
        split
        · unfold applyPortValue
          simp only [Option.bind_some, ConfigKey.most]
          cases parseNumber value 1 65535 <;> rfl
        · split
          · unfold applyTimeoutValue
            simp only [Option.bind_some, ConfigKey.most]
            cases parseNumber value 1 86400 <;> rfl
          · split
            · unfold applyPortValue
              simp only [Option.bind_some, ConfigKey.most]
              cases parseNumber value 1 65535 <;> rfl
            · rfl

/-- A piece sets a key to a number within the bounds. -/
theorem lineSetting_bounds {line : CString} {k : ConfigKey} {n : Int}
    (h : lineSetting line = some (k, n)) : 1 ≤ n ∧ n ≤ k.most := by
  unfold lineSetting at h
  cases hline : line.dropWhile fun c => c ≠ chr '=' with
  | nil => simp only [hline, reduceCtorEq] at h
  | cons _ eq =>
      simp only [hline] at h
      by_cases hlength : ((eq.dropWhile isBlank).takeWhile fun c => !endsValue c).length = 0 ∨
          ((eq.dropWhile isBlank).takeWhile fun c => !endsValue c).length ≥ valueSize
      · simp only [if_pos hlength, reduceCtorEq] at h
      · simp only [if_neg hlength] at h
        obtain ⟨k', -, hnumber⟩ := Option.bind_eq_some_iff.mp h
        obtain ⟨n', hparsed, heq⟩ := Option.map_eq_some_iff.mp hnumber
        obtain ⟨rfl, rfl⟩ := Prod.mk.inj heq
        exact parseNumber_bounds hparsed

/-- One round assigns the key of the piece. -/
theorem get_applyLine (cfg : RuntimeConfig) (line : CString) (k : ConfigKey) :
    (applyLine cfg line).get k = lastWrite k (cfg.get k) (lineSetting line).toList := by
  rw [applyLine_eq]
  cases hsetting : lineSetting line with
  | none => rfl
  | some setting =>
      obtain ⟨k', n⟩ := setting
      have hbounds := lineSetting_bounds hsetting
      refine RuntimeConfig.get_set (by omega) fun hport => ?_
      cases k' with
      | port => exact hbounds.2
      | adminPort => exact hbounds.2
      | adminTimeout => exact absurd rfl hport

/-- The loop goes through the pieces. -/
theorem cfgLoadLines_eq (cfg : RuntimeConfig) (f : CString) :
    cfgLoadLines cfg f = (pieces f).foldl applyLine cfg := by
  fun_induction cfgLoadLines cfg f with
  | case1 cfg => rw [pieces, List.foldl_nil]
  | case2 cfg c f ih => rw [ih, pieces, List.foldl_cons]

/-- After the loop a key has the number that it is set to last. -/
theorem get_cfgLoadLines (cfg : RuntimeConfig) (f : CString) (k : ConfigKey) :
    (cfgLoadLines cfg f).get k =
      lastWrite k (cfg.get k) ((pieces f).filterMap lineSetting) := by
  rw [cfgLoadLines_eq]
  induction pieces f generalizing cfg with
  | nil => rfl
  | cons line lines ih =>
      rw [List.foldl_cons, ih, get_applyLine, ← lastWrite_append, List.filterMap_cons]
      cases lineSetting line <;> rfl

end SqlCodeGenerator
