import SqlCodeGenerator.InsertScanners
import SqlCodeGenerator.RowCapacity

/-!
# Joining two batches with a semicolon

Two scanners decide where a string ends.  The splitting loop toggles a bit at
every apostrophe that does not stand directly behind a backslash, inside quoted
identifiers as well; `parse_value` doubles apostrophes and knows no backslash.

* When the first text holds an even number of apostrophes the loop counts, the
  semicolon between the two texts cuts, and the statements of the whole are
  those of the two parts.
* When the number is odd, the last statement of the first text swallows the
  semicolon.  An accepted statement is never accepted with a semicolon behind it
  (`not_reading_append`), so the whole is refused.

`parseBatch_semicolon_iff` puts the two together.
-/

namespace SqlCodeGenerator

open Library

/-! ## The apostrophes the loop counts -/

/-- The apostrophes that do not stand directly behind a backslash, in a text
with the given character in front of it. -/
def unescapedFrom : Option CChar → CString → Nat
  | _, [] => 0
  | previous, c :: rest =>
      (if c = apostrophe ∧ previous ≠ some backslash then 1 else 0) +
        unescapedFrom (some c) rest

/-- The apostrophes of a text that do not stand directly behind a backslash. -/
def unescapedApostrophes (text : CString) : Nat := unescapedFrom none text

/-- The bit of the splitting loop is the parity of the apostrophes counted. -/
theorem inString_foldl_splitStep (s : SplitState) (text : CString) :
    (text.foldl splitStep s).inString = (s.inString ^^ (unescapedFrom s.previous text).bodd) := by
  induction text generalizing s with
  | nil => simp [unescapedFrom]
  | cons c text ih =>
      rw [List.foldl_cons, ih, unescapedFrom, Nat.bodd_add]
      by_cases hc : c = apostrophe ∧ s.previous ≠ some backslash
      · simp [splitStep, hc]
      · simp [splitStep, if_neg hc]

theorem unescapedFrom_eq_zero {text : CString} (h : apostrophe ∉ text)
    (previous : Option CChar) : unescapedFrom previous text = 0 := by
  induction text generalizing previous with
  | nil => rfl
  | cons c text ih =>
      obtain ⟨hc, htext⟩ := not_or.mp (mt List.mem_cons.mpr h)
      rw [unescapedFrom, if_neg (fun hboth => hc hboth.1.symm), ih htext]

/-- The loop is outside strings at the end of a text with an even number. -/
theorem inString_splitStart (text : CString) :
    (text.foldl splitStep splitStart).inString = false ↔ Even (unescapedApostrophes text) := by
  have hparity := Nat.mod_two_of_bodd (unescapedApostrophes text)
  rw [inString_foldl_splitStep, Nat.even_iff, hparity]
  cases hbit : (unescapedApostrophes text).bodd with
  | false => simpa [splitStart, unescapedApostrophes] using hbit
  | true => simpa [splitStart, unescapedApostrophes] using hbit

/-! ## A semicolon that cuts -/

/-- Behind a semicolon the loop goes on as at the beginning of a text. -/
theorem splitStatements_semicolon {a : CString} (b : CString)
    (h : Even (unescapedApostrophes a)) :
    splitStatements (a ++ semicolon :: b) = splitStatements a ++ splitStatements b := by
  have hout := (inString_splitStart a).mpr h
  have hcut : splitCuts (splitStep (a.foldl splitStep splitStart) semicolon) semicolon = true := by
    simp [splitCuts, splitStep, hout, (by decide : semicolon ≠ apostrophe)]
  unfold splitStatements
  rw [cutText_append_cut hcut]
  congr 1
  -- the states differ in the character before, which is a backslash in neither
  refine cutText_congr
    (fun s t => s.inString = t.inString ∧
      (s.previous = some backslash ↔ t.previous = some backslash)) ?_ ?_ ?_ b
  · rintro s t c ⟨hbit, hprevious⟩
    refine ⟨?_, Iff.rfl⟩
    simp only [splitStep, hbit, ne_eq, hprevious]
  · rintro s t c ⟨hbit, hprevious⟩
    simp only [splitCuts, splitStep, hbit, ne_eq, hprevious]
  · refine ⟨?_, ?_⟩
    · simpa [splitStep, splitStart, (by decide : semicolon ≠ apostrophe)] using hout
    · simp [splitStep, splitStart, (by decide : semicolon ≠ backslash)]

/-! ## A semicolon behind an accepted statement -/

variable {tables : Tables} {stmt extra : CString}

theorem insertTarget_append {p : CString} {target : InsertTarget}
    (h : insertTarget tables p = .ok target) (hafter : target.after ≠ []) :
    insertTarget tables (p ++ extra) =
      .ok { target with after := target.after ++ extra } := by
  obtain ⟨hinsert, hinto, after, hname, hindex, htable, htarget⟩ := insertTarget_eq_ok_iff.mp h
  have hdrop : (p ++ extra).drop 6 = p.drop 6 ++ extra :=
    List.drop_append_of_le_length (length_le_of_ciStarts hinsert)
  have hskip : skipWs (p.drop 6) ≠ [] := by
    intro hblank
    rw [hblank] at hinto
    exact absurd hinto (by decide)
  have hdrop' : (skipWs (p.drop 6) ++ extra).drop 4 = (skipWs (p.drop 6)).drop 4 ++ extra :=
    List.drop_append_of_le_length (length_le_of_ciStarts hinto)
  have hne : skipWs after ≠ [] := htarget ▸ hafter
  refine insertTarget_eq_ok_iff.mpr ⟨ciStarts_append hinsert, ?_, after ++ extra, ?_, hindex,
    htable, ?_⟩
  · rw [hdrop, skipWs_append hskip]
    exact ciStarts_append hinto
  · rw [hdrop, skipWs_append hskip, hdrop']
    exact parseIdentifier_append hname (ne_nil_of_skipWs_ne_nil hne)
  · rw [skipWs_append hne, htarget]

/-- Tuples are read to the end of the text: nothing else may stand behind. -/
theorem not_tuplesRead_append {p rest : CString} {tuples : List (List Cell)} {d : CChar}
    (h : TuplesRead p tuples) (hextra : skipWs extra = d :: rest) (hcomma : d ≠ comma)
    (hopen : d ≠ openParen) (tuples' : List (List Cell)) :
    ¬ TuplesRead (p ++ extra) tuples' := by
  induction h generalizing tuples' with
  | @done p hend =>
      have hskip : skipWs (p ++ extra) = d :: rest := by rw [skipWs_append_of_blank hend, hextra]
      intro hread
      cases hread with
      | done hend' => rw [hskip] at hend'; cases hend'
      | comma hsep => exact hcomma (List.cons.inj (hskip.symm.trans hsep)).1
      | tuple hsep => exact hopen (List.cons.inj (hskip.symm.trans hsep)).1
  | @comma p next tuples hsep hrest ih =>
      have hskip := @skipWs_append_cons p extra _ _ hsep
      intro hread
      cases hread with
      | done hend' => rw [hskip] at hend'; cases hend'
      | comma hsep' hrest' =>
          obtain ⟨-, rfl⟩ := List.cons.inj (hskip.symm.trans hsep')
          exact ih _ hrest'
      | tuple hsep' => exact absurd (List.cons.inj (hskip.symm.trans hsep')).1 (by decide)
  | @tuple p next after cells tuples hsep htuple hrest ih =>
      have hskip := @skipWs_append_cons p extra _ _ hsep
      intro hread
      cases hread with
      | done hend' => rw [hskip] at hend'; cases hend'
      | comma hsep' => exact absurd (List.cons.inj (hskip.symm.trans hsep')).1 (by decide)
      | tuple hsep' htuple' hrest' =>
          obtain ⟨-, rfl⟩ := List.cons.inj (hskip.symm.trans hsep')
          obtain ⟨-, rfl⟩ := htuple.append.unique htuple'
          exact ih _ hrest'

/-- `VALUES` stands where it was found, with room for its six letters. -/
theorem Reading.Of.six_le_length_values {r : Reading} (hr : r.Of tables stmt) :
    6 ≤ r.values.length :=
  length_le_of_ciStarts (ciFind_spec hr.values).1

theorem Reading.Of.rest_ne_nil {r : Reading} (hr : r.Of tables stmt) : r.rest ≠ [] := by
  obtain ⟨-, skipped, hsplit⟩ := ciFind_spec hr.values
  have hlen := hr.six_le_length_values
  intro hnil
  have hboth := congrArg List.length (hnil.symm.trans hsplit)
  rw [List.length_nil, List.length_append] at hboth
  omega

theorem Reading.Of.after_ne_nil {r : Reading} (hr : r.Of tables stmt) :
    r.target.after ≠ [] :=
  hr.columns.ne_nil hr.rest_ne_nil

/-- An accepted statement with a semicolon behind it is not accepted. -/
theorem not_reading_append {r : Reading} (hr : r.Of tables stmt) {rest : CString}
    (hextra : skipWs extra = semicolon :: rest) (r' : Reading) :
    ¬ r'.Of tables (stmt ++ extra) := by
  intro hr'
  have hskip : skipWs stmt ≠ [] := by
    intro hblank
    exact insertTarget_nil tables r.target (hblank ▸ hr.target)
  -- the statement is read as before up to the tuples, which the semicolon ends
  have htarget : r'.target = { r.target with after := r.target.after ++ extra } := by
    have hsame := hr'.target
    rw [skipWs_append hskip, insertTarget_append hr.target hr.after_ne_nil] at hsame
    exact (Outcome.ok.inj hsame).symm
  have hcolumns := hr'.columns
  rw [htarget] at hcolumns
  obtain ⟨-, hrest⟩ := (hr.columns.append hr.rest_ne_nil).unique hcolumns
  have hvalues : r'.values = r.values ++ extra := by
    have hfound := hr'.values
    rw [← hrest, ciFind_append hr.values] at hfound
    exact (Option.some.inj hfound).symm
  have htuples := hr'.tuples
  rw [hvalues, List.drop_append_of_le_length hr.six_le_length_values] at htuples
  exact not_tuplesRead_append hr.tuples hextra (by decide) (by decide) r'.tuples htuples

/-! ## A statement that swallows the semicolon -/

/-- What stands behind a text that is not blank, after both are trimmed as one. -/
theorem trimInplace_append {text : CString} {c : CChar} (hc : isSpace c = false)
    (hblank : trimInplace text ≠ []) (rest : CString) :
    ∃ extra rest', trimInplace (text ++ c :: rest) = trimInplace text ++ extra ∧
      skipWs extra = c :: rest' := by
  have hcut : text = text.rdropWhile isSpace ++ text.rtakeWhile isSpace :=
    List.rdropWhile_append_rtakeWhile.symm
  refine ⟨text.rtakeWhile isSpace ++ c :: rest.rdropWhile isSpace, rest.rdropWhile isSpace,
    ?_, ?_⟩
  · have hskip : skipWs (text.rdropWhile isSpace) ≠ [] := hblank
    have hwhole : (text ++ c :: rest).rdropWhile isSpace =
        text.rdropWhile isSpace ++ (text.rtakeWhile isSpace ++ c :: rest.rdropWhile isSpace) := by
      rw [rdropWhile_append_cons hc, ← List.append_assoc, ← hcut]
    have hsame := @skipWs_append (text.rdropWhile isSpace)
      (text.rtakeWhile isSpace ++ c :: rest.rdropWhile isSpace) hskip
    rw [← hwhole] at hsame
    exact hsame
  · have hspaces : skipWs (text.rtakeWhile isSpace) = [] :=
      List.dropWhile_eq_nil_iff.mpr fun d hd => List.mem_rtakeWhile_imp hd
    rw [skipWs_append_of_blank hspaces, skipWs_cons_of_not_isSpace hc]

/-- White space is all that a blank text holds. -/
theorem notMem_of_blank {text : CString} {c : CChar} (hc : isSpace c = false)
    (h : trimInplace text = []) : c ∉ text := by
  intro hmem
  have hall : ∀ d ∈ text.rdropWhile isSpace, isSpace d = true := List.dropWhile_eq_nil_iff.mp h
  have hcut : text = text.rdropWhile isSpace ++ text.rtakeWhile isSpace :=
    List.rdropWhile_append_rtakeWhile.symm
  rw [hcut, List.mem_append] at hmem
  have hspace : isSpace c = true := by
    rcases hmem with hfront | hend
    · exact hall _ hfront
    · exact List.mem_rtakeWhile_imp hend
  rw [hspace] at hc
  cases hc

/-- Behind an accepted text a semicolon does not belong to a statement. -/
theorem not_reading_semicolon {text rest : CString} {rows : List InsertRow}
    (h : StatementRows tables text rows) (r' : Reading) :
    ¬ r'.Of tables (trimInplace (text ++ semicolon :: rest)) := by
  have hskip : skipWs (trimInplace text) = trimInplace text := skipWs_skipWs _
  have hspace : isSpace semicolon = false := by decide
  by_cases hblank : trimInplace text = []
  · -- the statement would begin with the semicolon
    intro hr'
    have hcut : text = text.rdropWhile isSpace ++ text.rtakeWhile isSpace :=
      List.rdropWhile_append_rtakeWhile.symm
    have hfront : text.rdropWhile isSpace = [] := by
      cases hfront : text.rdropWhile isSpace with
      | nil => rfl
      | cons c front =>
          have hlast := List.rdropWhile_last_not isSpace text (by simp [hfront])
          have hall := List.dropWhile_eq_nil_iff.mp hblank _ (List.getLast_mem (by simp [hfront]))
          exact absurd hall hlast
    have hblanks : skipWs text = [] :=
      List.dropWhile_eq_nil_iff.mpr fun c hc => by
        rw [hcut, hfront, List.nil_append] at hc
        exact List.mem_rtakeWhile_imp hc
    have htrim : trimInplace (text ++ semicolon :: rest) =
        semicolon :: rest.rdropWhile isSpace := by
      show skipWs ((text ++ semicolon :: rest).rdropWhile isSpace) = _
      rw [rdropWhile_append_cons hspace, skipWs_append_of_blank hblanks,
        skipWs_cons_of_not_isSpace hspace]
    have htarget := hr'.target
    rw [htrim, skipWs_cons_of_not_isSpace hspace] at htarget
    have hinsert := (insertTarget_eq_ok_iff.mp htarget).1
    have hletter : (decide (toLower semicolon = toLower (chr 'i')) &&
        ciStarts (rest.rdropWhile isSpace) (lit "nsert")) = true := hinsert
    exact absurd (Bool.and_eq_true_iff.mp hletter).1 (by decide)
  · obtain ⟨extra, rest', htrim, hextra⟩ := trimInplace_append hspace hblank rest
    rw [htrim]
    rcases h.2 with ⟨hnil, -⟩ | ⟨r, hr, -⟩
    · exact absurd (hskip ▸ hnil) hblank
    · exact not_reading_append hr hextra r'

/-- Inside a string the semicolon joins the last statement of the first text to
what follows. -/
theorem splitStatements_swallow {a b : CString} {pieces : List CString} {last : CString}
    (hpieces : splitStatements a = pieces ++ [last])
    (hin : (a.foldl splitStep splitStart).inString = true) :
    ∃ rest more, splitStatements (a ++ semicolon :: b) =
      pieces ++ (last ++ semicolon :: rest) :: more := by
  have hkeep :
      ¬ splitCuts (splitStep (a.foldl splitStep splitStart) semicolon) semicolon = true := by
    simp [splitCuts, splitStep, hin, (by decide : semicolon ≠ apostrophe)]
  have hwhole : splitStatements (a ++ semicolon :: b) =
      joinPieces (splitStatements a)
        (cutText splitStep splitCuts (a.foldl splitStep splitStart) (semicolon :: b)) :=
    cutText_append splitStart a (semicolon :: b)
  rw [hwhole, hpieces, cutText, if_neg hkeep]
  cases cutText splitStep splitCuts (splitStep (a.foldl splitStep splitStart) semicolon) b with
  | nil => exact ⟨[], [], joinPieces_concat _ _ _ _⟩
  | cons piece more => exact ⟨piece, more, joinPieces_concat _ _ _ _⟩

/-- Every statement of an accepted text is accepted. -/
theorem statementRows_of_mem {sql : CString} {batch : InsertBatch}
    (h : parseBatch tables sql = .ok batch) {text : CString} (htext : text ∈ splitStatements sql) :
    ∃ rows, StatementRows tables text rows := by
  obtain ⟨rowss, hrows, -⟩ := parseBatch_eq_ok_iff.mp h
  generalize splitStatements sql = texts at hrows htext
  induction hrows with
  | nil => cases htext
  | cons hrow hrest ih =>
      rcases List.mem_cons.mp htext with rfl | htext
      · exact ⟨_, hrow⟩
      · exact ih htext

/-- A text with an odd number of counted apostrophes, once accepted, is not
accepted with a semicolon behind it. -/
theorem parseBatch_semicolon_ne_ok {a b : CString} {A : InsertBatch}
    (ha : parseBatch tables a = .ok A) (hodd : ¬ Even (unescapedApostrophes a))
    (whole : InsertBatch) : parseBatch tables (a ++ semicolon :: b) ≠ .ok whole := by
  intro hwhole
  have hin : (a.foldl splitStep splitStart).inString = true := by
    simpa using mt (inString_splitStart a).mp hodd
  obtain ⟨pieces, last, hpieces⟩ :=
    (List.eq_nil_or_concat (splitStatements a)).resolve_left (cutText_ne_nil _ _)
  rw [List.concat_eq_append] at hpieces
  obtain ⟨rest, more, hsplit⟩ := splitStatements_swallow (b := b) hpieces hin
  have hlast : last ∈ splitStatements a := by simp [hpieces]
  have hlonger : last ++ semicolon :: rest ∈ splitStatements (a ++ semicolon :: b) := by
    simp [hsplit]
  obtain ⟨rows, hread⟩ := statementRows_of_mem ha hlast
  obtain ⟨rows', -, hread'⟩ := statementRows_of_mem hwhole hlonger
  rcases hread' with ⟨hnil, -⟩ | ⟨r', hr', -⟩
  · have hskip : skipWs (trimInplace (last ++ semicolon :: rest)) =
        trimInplace (last ++ semicolon :: rest) := skipWs_skipWs _
    have hmem : semicolon ∈ last ++ semicolon :: rest := by simp
    exact notMem_of_blank (by decide) (hskip ▸ hnil) hmem
  · exact not_reading_semicolon hread r' hr'

/-! ## The two texts -/

/-- Two accepted texts joined by a semicolon are accepted as their rows one after
the other exactly when the first holds an even number of apostrophes that do not
stand directly behind a backslash. -/
theorem parseBatch_semicolon_iff {a b : CString} {A B : InsertBatch}
    (ha : parseBatch tables a = .ok A) (hb : parseBatch tables b = .ok B)
    (hroom : A.count + B.items.length ≤ maxBatchRows) :
    parseBatch tables (a ++ semicolon :: b) = .ok (A.append B.items hroom) ↔
      Even (unescapedApostrophes a) := by
  constructor
  · intro hwhole
    by_contra hodd
    exact parseBatch_semicolon_ne_ok ha hodd _ hwhole
  · intro heven
    obtain ⟨rowss, hrows, hitems, hne⟩ := parseBatch_eq_ok_iff.mp ha
    obtain ⟨rowss', hrows', hitems', -⟩ := parseBatch_eq_ok_iff.mp hb
    refine parseBatch_eq_ok_iff.mpr ⟨rowss ++ rowss', ?_, ?_, ?_⟩
    · rw [splitStatements_semicolon b heven]
      exact List.rel_append hrows hrows'
    · rw [CountedArray.items_append, hitems, hitems', List.flatten_append]
    · rw [CountedArray.items_append]
      exact List.append_ne_nil_of_left_ne_nil hne _

/-- A value that ends in a backslash, as the first of two statements: each is
accepted, the two together are not. -/
theorem backslash_statement_swallows :
    parseBatch plainTables (lit "INSERT INTO t VALUES ('x\\')") =
        .ok ⟨[plainRow (lit "x\\")], by decide⟩ ∧
      parseBatch plainTables (lit "INSERT INTO t VALUES (1)") =
        .ok ⟨[plainRow (lit "1")], by decide⟩ ∧
      ∀ whole, parseBatch plainTables
        (lit "INSERT INTO t VALUES ('x\\')" ++ semicolon :: lit "INSERT INTO t VALUES (1)") ≠
          .ok whole := by
  have hrun : parseBatch plainTables (lit "INSERT INTO t VALUES ('x\\')") =
        .ok ⟨[plainRow (lit "x\\")], by decide⟩ ∧
      parseBatch plainTables
        (lit "INSERT INTO t VALUES ('x\\')" ++ semicolon :: lit "INSERT INTO t VALUES (1)") =
          .error (lit "expected '(' before values tuple") := by
    decide +kernel
  refine ⟨hrun.1, parseBatch_one, fun whole hwhole => ?_⟩
  rw [hrun.2] at hwhole
  cases hwhole

end SqlCodeGenerator
