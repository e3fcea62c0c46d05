import SqlCodeGenerator.InsertScanners
import SqlCodeGenerator.PointerParser

/-!
# The pointer parser computes what the INSERT parser does

Every function of the pointer parser, given more rounds for its loops than its text has
characters, ends as the function of `InsertParser` of the same name does.  Every access is
then inside its array, up to the one that `InsertParser` answers with a fault: the write
behind the end of `column_map`.
-/

namespace SqlCodeGenerator

open Library

variable {fuel : Nat}

namespace Pointers

/-! ## The string helpers -/

theorem skipWs_eq {p : CString} (hp : p.length < fuel) :
    skipWs fuel p = .done (SqlCodeGenerator.skipWs p) := by
  unfold skipWs
  refine CheckedRun.loop_eq (f := fun p => .done (SqlCodeGenerator.skipWs p))
    (List.length) (fun p _ => ?_) hp
  cases p with
  | nil => exact .stop _ rfl rfl
  | cons c p =>
      by_cases hc : isSpace c = true
      · refine .next p ?_ trivial (Nat.lt_succ_self p.length) ?_
        · simp [hc, advance]
        · simp [SqlCodeGenerator.skipWs, hc]
      · refine .stop (c :: p) ?_ ?_
        · simp [hc]
        · simp [SqlCodeGenerator.skipWs, hc]

theorem trimEnd_eq {s : CString} (hs : s.length < fuel) :
    trimEnd fuel s = .done (s.rdropWhile isSpace) := by
  unfold trimEnd
  refine CheckedRun.loop_eq (f := fun s => .done (s.rdropWhile isSpace))
    (List.length) (fun s _ => ?_) hs
  induction s using List.reverseRecOn with
  | nil => exact .stop _ rfl rfl
  | append_singleton s c _ =>
      by_cases hc : isSpace c = true
      · refine .next s ?_ trivial (by simp) ?_
        · simp [hc]
        · rw [List.rdropWhile_concat_pos _ _ _ hc]
      · refine .stop (s ++ [c]) ?_ ?_
        · simp [hc]
        · rw [List.rdropWhile_concat_neg _ _ _ hc]

theorem trimInplace_eq {s : CString} (hs : s.length < fuel) :
    trimInplace fuel s = .done (SqlCodeGenerator.trimInplace s) := by
  have hend : (s.rdropWhile isSpace).length < fuel :=
    Nat.lt_of_le_of_lt (List.rdropWhile_prefix isSpace s).length_le hs
  unfold trimInplace
  rw [trimEnd_eq hs, CheckedRun.done_bind, skipWs_eq hend]
  rfl

theorem ciStarts_eq {s word : CString} (hs : s.length < fuel) :
    ciStarts fuel s word = .done (SqlCodeGenerator.ciStarts s word) := by
  unfold ciStarts
  refine CheckedRun.loop_eq
    (f := fun state : CString × CString => .done (SqlCodeGenerator.ciStarts state.1 state.2))
    (fun state => state.1.length) (fun state _ => ?_) hs
  obtain ⟨s, word⟩ := state
  cases word with
  | nil => exact .stop _ rfl (by cases s <;> rfl)
  | cons d word =>
      cases s with
      | nil => exact .stop _ rfl rfl
      | cons c s =>
          by_cases hc : toLower c = toLower d
          · refine .next (s, word) ?_ trivial (Nat.lt_succ_self s.length) ?_
            · simp [hc, advance]
            · simp [SqlCodeGenerator.ciStarts, hc]
          · refine .stop false ?_ ?_
            · simp [hc]
            · simp [SqlCodeGenerator.ciStarts, hc]

theorem ciFind_eq {p word : CString} (hp : p.length < fuel) :
    ciFind fuel p word = .done (SqlCodeGenerator.ciFind p word) := by
  unfold ciFind
  by_cases hword : word = []
  · subst hword
    cases p <;> rfl
  · rw [if_neg hword]
    refine CheckedRun.loop_eq (f := fun p => .done (SqlCodeGenerator.ciFind p word))
      (List.length) (fun p hlt => ?_) hp
    cases p with
    | nil =>
        cases word with
        | nil => exact absurd rfl hword
        | cons d word => exact .stop _ rfl rfl
    | cons c p =>
        by_cases hfound : SqlCodeGenerator.ciStarts (c :: p) word = true
        · refine .stop (some (c :: p)) ?_ ?_
          · simp [ciStarts_eq hlt, hfound]
          · simp [ciFind_cons, hfound]
        · refine .next p ?_ trivial (Nat.lt_succ_self p.length) ?_
          · simp [ciStarts_eq hlt, hfound, advance]
          · simp [ciFind_cons, hfound]

theorem advanceBy_eq {n : Nat} {p : CString} (hn : n ≤ p.length) :
    advanceBy n p = .done (p.drop n) := by
  induction n generalizing p with
  | zero => rfl
  | succ n ih =>
      cases p with
      | nil => exact absurd hn (by simp)
      | cons c p => exact ih (Nat.le_of_succ_le_succ hn)

/-! ## Identifiers -/

theorem put_of_lt {array : ParserArray} {size : Nat} {out : CString} {c : CChar}
    (h : out.length < size) : put array size out c = .done (out ++ [c]) := by
  unfold put
  rw [CheckedRun.inside_of_lt h, CheckedRun.done_bind]

theorem endText_of_lt {array : ParserArray} {size : Nat} {out : CString}
    (h : out.length < size) : endText array size out = .done out := by
  unfold endText
  rw [CheckedRun.inside_of_lt h, CheckedRun.done_bind]

theorem copyWhile_eq (test : CChar → Bool) (outLen : Nat) {p : CString} (hp : p.length < fuel) :
    copyWhile test outLen fuel p = .done (spanUpTo test (outLen - 1) p) := by
  unfold copyWhile
  refine CheckedRun.loop_eq
    (f := fun state : CString × CString =>
      .done (state.1 ++ (spanUpTo test (outLen - 1 - state.1.length) state.2).1,
        (spanUpTo test (outLen - 1 - state.1.length) state.2).2))
    (fun state => state.2.length) (fun state _ => ?_) hp
  obtain ⟨out, p⟩ := state
  cases p with
  | nil => exact .stop _ rfl (by cases outLen - 1 - out.length <;> simp [spanUpTo])
  | cons c p =>
      by_cases hc : test c = true ∧ out.length + 1 < outLen
      · have hroom : outLen - 1 - out.length = outLen - 1 - (out ++ [c]).length + 1 := by
          rw [List.length_append, List.length_singleton]
          omega
        refine .next (out ++ [c], p) ?_ trivial (Nat.lt_succ_self p.length) ?_
        · simp [hc, put_of_lt (Nat.lt_of_succ_lt hc.2), advance]
        · rw [hroom, spanUpTo, if_pos hc.1]
          simp
      · -- the character fails the test or there is no room for it
        have hstop : spanUpTo test (outLen - 1 - out.length) (c :: p) = ([], c :: p) := by
          cases hroom : outLen - 1 - out.length with
          | zero => rfl
          | succ room =>
              have htest : ¬ test c = true := fun htest => hc ⟨htest, by omega⟩
              rw [spanUpTo, if_neg htest]
        refine .stop (out, c :: p) ?_ ?_
        · show (if test c = true ∧ out.length + 1 < outLen then _ else _) = _
          rw [if_neg hc]
        · simp [hstop]

theorem endIdentifier_eq {outLen : Nat} {out : CString} (h : out.length < outLen) (p : CString) :
    endIdentifier outLen out p = .done (if out = [] then none else some (out, p)) := by
  unfold endIdentifier
  rw [endText_of_lt h, CheckedRun.done_bind]
  split
  · rfl
  · rfl

theorem parseIdentifier_eq {p : CString} {outLen : Nat} (hp : p.length < fuel)
    (hlen : 0 < outLen) :
    parseIdentifier fuel p outLen = .done (SqlCodeGenerator.parseIdentifier p outLen) := by
  have hskip := length_skipWs_le p
  have hfits : ∀ (test : CChar → Bool) (q : CString),
      (spanUpTo test (outLen - 1) q).1.length < outLen := by
    intro test q
    have := length_spanUpTo_fst_le test (outLen - 1) q
    omega
  unfold parseIdentifier SqlCodeGenerator.parseIdentifier
  rw [skipWs_eq hp, CheckedRun.done_bind]
  cases hstart : SqlCodeGenerator.skipWs p with
  | nil =>
      have hspan : spanUpTo isIdentifierChar (outLen - 1) [] = ([], []) := by
        cases outLen - 1 <;> rfl
      have hempty : ([] : CString).length < fuel := Nat.lt_of_le_of_lt (Nat.zero_le p.length) hp
      have hcopy := copyWhile_eq isIdentifierChar outLen hempty
      have hend := endIdentifier_eq (show ([] : CString).length < outLen from hlen) []
      simp [hcopy, hspan, hend]
  | cons c rest =>
      rw [hstart, List.length_cons] at hskip
      -- between quotes up to the same quote, without them as long as the characters are a name's
      by_cases hquote : isIdentifierQuote c = true
      · have hcopy := copyWhile_eq (fun d => d ≠ c) outLen
          (Nat.lt_of_le_of_lt (Nat.le_of_succ_le hskip) hp)
        have hname := hfits (fun d => d ≠ c) rest
        simp only [List.head?_cons, Option.filter_some, hquote, if_true, advance,
          CheckedRun.done_bind, hcopy]
        generalize spanUpTo (fun d => decide (d ≠ c)) (outLen - 1) rest = found at hname ⊢
        obtain ⟨name, after⟩ := found
        have hend := endIdentifier_eq (hname : name.length < outLen)
        cases after with
        | nil => rfl
        | cons d after =>
            by_cases hd : d = c
            · simp [hd, hend]
            · simp [hd]
      · have hcopy := copyWhile_eq isIdentifierChar outLen (p := c :: rest)
          (Nat.lt_of_le_of_lt hskip hp)
        have hname := hfits isIdentifierChar (c :: rest)
        simp only [List.head?_cons, Option.filter_some, hquote, hcopy, CheckedRun.done_bind]
        generalize spanUpTo isIdentifierChar (outLen - 1) (c :: rest) = found at hname ⊢
        obtain ⟨name, after⟩ := found
        have hend := endIdentifier_eq (hname : name.length < outLen)
        simp [hend]

/-! ## Values -/

/-- What a value's buffer holds after more characters. -/
def extended (value more : CString) : CString := value ++ more.take (maxValue - 1 - value.length)

theorem extended_cons (value : CString) (c : CChar) (more : CString) :
    extended value (c :: more) =
      if value.length + 1 < maxValue then extended (value ++ [c]) more
      else extended value more := by
  unfold extended
  split
  · next hroom =>
      have hcount : maxValue - 1 - value.length = maxValue - 1 - (value ++ [c]).length + 1 := by
        rw [List.length_append, List.length_singleton]
        omega
      rw [hcount, List.take_succ_cons, List.append_assoc]
      rfl
  · next hroom =>
      have hcount : maxValue - 1 - value.length = 0 := by omega
      rw [hcount, List.take_zero, List.take_zero]

theorem extended_nil (value : CString) : extended value [] = value := by
  simp [extended]

theorem putValue_eq (value : CString) (c : CChar) :
    putValue value c =
      .done (if value.length + 1 < maxValue then value ++ [c] else value) := by
  unfold putValue
  split
  · next hroom => rw [put_of_lt (Nat.lt_of_succ_lt hroom)]
  · rfl

theorem quotedValue_eq {p : CString} (hp : p.length < fuel) :
    quotedValue fuel p =
      .done ((quotedText p).1.take (maxValue - 1), (quotedText p).2) := by
  unfold quotedValue
  refine CheckedRun.loop_eq
    (f := fun state : CString × CString =>
      .done (extended state.1 (quotedText state.2).1, (quotedText state.2).2))
    (fun state => state.2.length) (fun state _ => ?_) hp
  obtain ⟨value, p⟩ := state
  induction p using quotedText_induction with
  | nil => exact .stop _ rfl (by rw [quotedText, extended_nil])
  | char c p hc _ =>
      refine .next (if value.length + 1 < maxValue then value ++ [c] else value, p)
        ?_ trivial (Nat.lt_succ_self p.length) ?_
      · simp [hc, putValue_eq, advance]
      · rw [quotedText_cons hc, extended_cons]
        split <;> simp_all
  -- one apostrophe of the two is kept
  | doubled p _ =>
      refine .next
        (if value.length + 1 < maxValue then value ++ [apostrophe] else value, p)
        ?_ trivial (Nat.lt_succ_of_lt (Nat.lt_succ_self p.length)) ?_
      · simp [charBehind, putValue_eq, advanceBy, advance]
      · rw [quotedText_doubled, extended_cons]
        split <;> simp_all
  | close p hclose =>
      refine .stop (value, p) ?_ ?_
      · simp [charBehind, hclose, advance]
      · rw [quotedText_close hclose, extended_nil]

theorem bareValue_eq {p : CString} (hp : p.length < fuel) :
    bareValue fuel p =
      .done ((p.takeWhile isBareValueChar).take (maxValue - 1), p.dropWhile isBareValueChar) := by
  unfold bareValue
  refine CheckedRun.loop_eq
    (f := fun state : CString × CString =>
      .done (extended state.1 (state.2.takeWhile isBareValueChar),
        state.2.dropWhile isBareValueChar))
    (fun state => state.2.length) (fun state _ => ?_) hp
  obtain ⟨value, p⟩ := state
  cases p with
  | nil => exact .stop _ rfl (by rw [List.takeWhile_nil, extended_nil, List.dropWhile_nil])
  | cons c p =>
      by_cases hc : isBareValueChar c = true
      · refine .next (if value.length + 1 < maxValue then value ++ [c] else value, p)
          ?_ trivial (Nat.lt_succ_self p.length) ?_
        · simp [hc, putValue_eq, advance]
        · rw [List.takeWhile_cons_of_pos hc, List.dropWhile_cons_of_pos hc, extended_cons]
          split <;> simp_all
      · refine .stop (value, c :: p) ?_ ?_
        · simp [hc]
        · rw [List.takeWhile_cons_of_neg hc, List.dropWhile_cons_of_neg hc, extended_nil]

theorem copiedValue_eq {p : CString} (hp : p.length < fuel) :
    copiedValue fuel p = .done ((valueText p).1.take (maxValue - 1), (valueText p).2) := by
  unfold copiedValue
  cases p with
  | nil =>
      rw [if_neg (by simp), bareValue_eq hp]
      rfl
  | cons c rest =>
      by_cases hc : c = apostrophe
      · subst hc
        rw [if_pos List.head?_cons, advance, CheckedRun.done_bind,
          quotedValue_eq (Nat.lt_of_succ_lt hp), valueText, if_pos rfl]
      · rw [if_neg (by simpa using hc), bareValue_eq hp, valueText, if_neg hc]

theorem length_quotedText_fst_le (p : CString) : (quotedText p).1.length ≤ p.length := by
  induction p using quotedText_induction with
  | nil => simp [quotedText]
  | char c p hc ih =>
      rw [quotedText_cons hc, List.length_cons, List.length_cons]
      exact Nat.succ_le_succ ih
  | doubled p ih =>
      rw [quotedText_doubled, List.length_cons, List.length_cons, List.length_cons]
      exact Nat.succ_le_succ (Nat.le_succ_of_le ih)
  | close p hp =>
      rw [quotedText_close hp]
      exact Nat.zero_le _

theorem length_valueText_fst_le (p : CString) : (valueText p).1.length ≤ p.length := by
  cases p with
  | nil => simp [valueText]
  | cons c rest =>
      rw [valueText]
      split
      · exact Nat.le_succ_of_le (length_quotedText_fst_le rest)
      · exact (List.takeWhile_sublist isBareValueChar).length_le

/-- What `parse_value` leaves in `value` and `is_null` is stored as the cell of
`parseValue`. -/
theorem parseValue_eq {p : CString} (hp : p.length < fuel) :
    ∃ value isNull, parseValue fuel p =
        .done (value, isNull, (SqlCodeGenerator.parseValue p).2) ∧
      (⟨snprintf value, isNull⟩ : Cell) = (SqlCodeGenerator.parseValue p).1 := by
  have hskip : (SqlCodeGenerator.skipWs p).length < fuel :=
    Nat.lt_of_le_of_lt (length_skipWs_le p) hp
  have htext : ((valueText (SqlCodeGenerator.skipWs p)).1.take (maxValue - 1)).length < maxValue :=
    Nat.lt_of_le_of_lt (List.length_take_le _ _) (by decide)
  have hshort : ((valueText (SqlCodeGenerator.skipWs p)).1.take (maxValue - 1)).length < fuel :=
    Nat.lt_of_le_of_lt ((List.length_take_le' _ _).trans (length_valueText_fst_le _)) hskip
  unfold parseValue
  rw [skipWs_eq hp, CheckedRun.done_bind, copiedValue_eq hskip, CheckedRun.done_bind]
  dsimp only
  rw [endText_of_lt htext, CheckedRun.done_bind, trimInplace_eq hshort, CheckedRun.done_bind]
  by_cases hnull : SqlCodeGenerator.trimInplace
      ((valueText (SqlCodeGenerator.skipWs p)).1.take (maxValue - 1)) = lit "NULL"
  · exact ⟨[], true, if_pos hnull, (if_pos hnull).symm⟩
  · exact ⟨_, false, if_neg hnull, (if_neg hnull).symm⟩

/-! ## The column list -/

theorem stopsAt_cons (d c : CChar) (p : CString) : stopsAt (d :: p) c = decide (d = c) := by
  simp [stopsAt]

theorem columnList_eq {table : Table} {tableName p : CString} (hp : p.length < fuel) :
    columnList fuel table tableName p =
      .ofOutcome .columnMap (SqlCodeGenerator.columnList table tableName .empty p) := by
  unfold columnList
  refine CheckedRun.loop_bind_eq (fun _ => True)
    (fun state : ColumnMap × CString => state.2.length)
    (f := fun state : ColumnMap × CString => CheckedRun.ofOutcome ParserArray.columnMap
      (SqlCodeGenerator.columnList table tableName state.1 state.2))
    (s := (CountedArray.empty, p)) (fun state _ hlt => ?_) (Nat.le_refl fuel) trivial hp
  obtain ⟨map, p⟩ := state
  cases p with
  | nil =>
      refine .stop (map, []) rfl ?_
      simp [SqlCodeGenerator.columnList]
  | cons c rest =>
      by_cases hclose : c = closeParen
      · subst hclose
        refine .stop (map, closeParen :: rest) (by simp [stopsAt_cons]) ?_
        simp [columnList_close, advance]
      · have hname := parseIdentifier_eq hlt (by decide : 0 < maxName)
        cases hread : SqlCodeGenerator.parseIdentifier (c :: rest) maxName with
        | none =>
            rw [hread] at hname
            refine .failed (lit "expected column name") ?_ ?_
            · simp [stopsAt_cons, hclose, hname]
            · simp [columnList_cons hclose, hread]
        | some found =>
            obtain ⟨colName, after⟩ := found
            have hafter := length_parseIdentifier_lt hread
            rw [hread] at hname
            cases hcolumn : findColumn table colName with
            | none =>
                refine .failed (unknownColumn tableName colName) ?_ ?_
                · simp [stopsAt_cons, hclose, hname, hcolumn]
                · simp [columnList_cons hclose, hread, hcolumn]
            -- the store is checked here and not before: there may be no place for it
            | some ci =>
                cases hpush : map.push? ci with
                | none =>
                    refine .outside .columnMap ?_ ?_
                    · simp [stopsAt_cons, hclose, hname, hcolumn, hpush]
                    · simp [columnList_cons hclose, hread, hcolumn, hpush]
                | some map₁ =>
                    have hskip := skipWs_eq (Nat.lt_trans hafter hlt)
                    have hnext := length_skipWs_le after
                    cases hsep : SqlCodeGenerator.skipWs after with
                    | nil =>
                        rw [hsep] at hskip
                        refine .failed
                          (lit "expected comma or ')' in column list") ?_ ?_
                        · simp [stopsAt_cons, hclose, hname, hcolumn, hpush, hskip]
                        · simp [columnList_cons hclose, hread, hcolumn, hpush, hsep]
                    | cons d next =>
                        rw [hsep] at hskip
                        rw [hsep, List.length_cons] at hnext
                        by_cases hcomma : d = comma
                        · refine .next (map₁, next) ?_ trivial ?_ ?_
                          · simp [stopsAt_cons, hclose, hname, hcolumn, hpush, hskip, hcomma,
                              advance]
                          · show next.length < (c :: rest).length
                            omega
                          · simp [columnList_cons hclose, hread, hcolumn, hpush, hsep, hcomma]
                        · by_cases hend : d = closeParen
                          · subst hend
                            refine .next (map₁, closeParen :: next) ?_ trivial ?_ ?_
                            · simp [stopsAt_cons, hclose, hname, hcolumn, hpush, hskip, hcomma]
                            · show (closeParen :: next).length < (c :: rest).length
                              rw [List.length_cons]
                              omega
                            · simp [columnList_cons hclose, hread, hcolumn, hpush, hsep, hcomma,
                                columnList_close]
                          · refine .failed
                              (lit "expected comma or ')' in column list") ?_ ?_
                            · simp [stopsAt_cons, hclose, hname, hcolumn, hpush, hskip, hcomma,
                                hend]
                            · simp [columnList_cons hclose, hread, hcolumn, hpush, hsep, hcomma,
                                hend]

theorem columnMap_eq {table : Table} {tableName p : CString} (hp : p.length < fuel) :
    columnMap fuel table tableName p =
      .ofOutcome .columnMap (SqlCodeGenerator.columnMap table tableName p) := by
  unfold columnMap SqlCodeGenerator.columnMap
  cases p with
  | nil => rfl
  | cons c rest =>
      by_cases hc : c = openParen
      · subst hc
        rw [if_pos List.head?_cons, advance, CheckedRun.done_bind,
          columnList_eq (Nat.lt_of_succ_lt hp)]
        dsimp only
        rw [if_pos rfl]
      · rw [if_neg (by simpa using hc)]
        dsimp only
        rw [if_neg hc]
        rfl

/-! ## The tuples -/

theorem quotedText_suffix (p : CString) : (quotedText p).2 <:+ p := by
  induction p using quotedText_induction with
  | nil => simp [quotedText]
  | char c p hc ih =>
      rw [quotedText_cons hc]
      exact ih.trans (List.suffix_cons c p)
  | doubled p ih =>
      rw [quotedText_doubled]
      exact ih.trans ((List.suffix_cons _ _).trans (List.suffix_cons _ _))
  | close p hp =>
      rw [quotedText_close hp]
      exact List.suffix_cons _ _

theorem valueText_suffix (p : CString) : (valueText p).2 <:+ p := by
  cases p with
  | nil => simp [valueText]
  | cons c rest =>
      rw [valueText]
      split
      · exact (quotedText_suffix rest).trans (List.suffix_cons c rest)
      · exact List.dropWhile_suffix isBareValueChar

/-- `parse_value` only moves its pointer forward. -/
theorem parseValue_suffix (p : CString) : (SqlCodeGenerator.parseValue p).2 <:+ p :=
  (valueText_suffix _).trans (List.dropWhile_suffix isSpace)

/-- A value that does not begin at the closing parenthesis it ends at has characters. -/
theorem length_lt_of_parseValue {c d : CChar} {rest next : CString}
    (hsep : SqlCodeGenerator.skipWs (SqlCodeGenerator.parseValue (c :: rest)).2 = d :: next)
    (hc : c ≠ d) : (d :: next).length < (c :: rest).length := by
  have hsuffix : d :: next <:+ c :: rest := by
    rw [← hsep]
    exact (List.dropWhile_suffix isSpace).trans (parseValue_suffix (c :: rest))
  refine Nat.lt_of_le_of_ne hsuffix.length_le fun hlen => hc ?_
  exact (List.cons.inj (hsuffix.eq_of_length hlen)).1.symm

/-- Either all columns of the map have got their value, or the next one is read. -/
theorem columnsLeft {map : ColumnMap} {valueIndex : Nat} (h : valueIndex ≤ map.count) :
    (valueIndex = map.count ∧ map.items.drop valueIndex = []) ∨
      (valueIndex < map.count ∧ ∃ ci, map.items[valueIndex]? = some ci ∧
        map.items.drop valueIndex = ci :: map.items.drop (valueIndex + 1)) := by
  rcases Nat.lt_or_eq_of_le h with hlt | heq
  · exact Or.inr ⟨hlt, map.items[valueIndex], List.getElem?_eq_getElem hlt,
      List.drop_eq_getElem_cons hlt⟩
  · exact Or.inl ⟨heq, List.drop_eq_nil_of_le (Nat.le_of_eq heq.symm)⟩

theorem tupleValues_eq (map : ColumnMap) (row : Row) {p : CString} (hp : p.length < fuel) :
    tupleValues fuel map row p =
      .ofOutcome .columnMap (SqlCodeGenerator.tupleValues map.items row p) := by
  unfold tupleValues
  refine CheckedRun.loop_bind_eq
    (fun state : Row × Nat × CString => state.2.1 ≤ map.count)
    (fun state => state.2.2.length)
    (f := fun state => CheckedRun.ofOutcome ParserArray.columnMap
      (SqlCodeGenerator.tupleValues (map.items.drop state.2.1) state.1 state.2.2))
    (s := (row, 0, p)) (fun state hindex hlt => ?_) (Nat.le_refl fuel) (Nat.zero_le _) hp
  obtain ⟨row, valueIndex, p⟩ := state
  dsimp only at hindex hlt
  cases p with
  | nil =>
      refine .stop (row, valueIndex, []) rfl ?_
      simp [SqlCodeGenerator.tupleValues]
  | cons c rest =>
      by_cases hclose : c = closeParen
      · subst hclose
        refine .stop (row, valueIndex, closeParen :: rest) (by simp [stopsAt_cons]) ?_
        rcases columnsLeft hindex with ⟨hend, hdrop⟩ | ⟨hlt', ci, -, hdrop⟩
        · rw [hdrop]
          simp [SqlCodeGenerator.tupleValues, hend, advance]
        · simp [hdrop, SqlCodeGenerator.tupleValues, Nat.ne_of_lt hlt']
      · rcases columnsLeft hindex with ⟨hend, hdrop⟩ | ⟨hlt', ci, hci, hdrop⟩
        · refine .failed (lit "too many values") ?_ ?_
          · simp [stopsAt_cons, hclose, hend]
          · simp [hdrop, SqlCodeGenerator.tupleValues, hclose]
        · have hmany : ¬ valueIndex ≥ map.count := Nat.not_le.mpr hlt'
          have hmapped : mappedColumn map valueIndex = .done ci := by
            simp [mappedColumn, hci]
          obtain ⟨value, isNull, hvalue, hcell⟩ := parseValue_eq hlt
          have hafter := length_parseValue_le (c :: rest)
          have hskip := skipWs_eq (Nat.lt_of_le_of_lt hafter hlt)
          cases hsep : SqlCodeGenerator.skipWs (SqlCodeGenerator.parseValue (c :: rest)).2 with
          | nil =>
              rw [hsep] at hskip
              refine .failed (lit "expected comma or ')' in values tuple") ?_ ?_
              · simp [stopsAt_cons, hclose, hmany, hvalue, hmapped, hskip]
              · simp [hdrop, SqlCodeGenerator.tupleValues, hclose, hsep]
          | cons d next =>
              have hnext := length_skipWs_le (SqlCodeGenerator.parseValue (c :: rest)).2
              rw [hsep, List.length_cons] at hnext
              rw [hsep] at hskip
              -- either way the cell has been written; what ends the value decides how the
              -- loop goes on
              by_cases hcomma : d = comma
              · refine .next (row.store ci ⟨snprintf value, isNull⟩,
                  valueIndex + 1, next) ?_ hlt' ?_ ?_
                · simp [stopsAt_cons, hclose, hmany, hvalue, hmapped, hskip, hcomma, advance]
                · show next.length < (c :: rest).length
                  omega
                · simp [hdrop, SqlCodeGenerator.tupleValues, hclose, hsep, hcomma, hcell]
              · by_cases hend : d = closeParen
                · have hne : closeParen ≠ comma := by decide
                  refine .next (row.store ci ⟨snprintf value, isNull⟩,
                    valueIndex + 1, d :: next) ?_ hlt' ?_ ?_
                  · simp [stopsAt_cons, hclose, hmany, hvalue, hmapped, hskip, hend, hne]
                  · exact length_lt_of_parseValue hsep (hend ▸ hclose)
                  · simp [hdrop, SqlCodeGenerator.tupleValues, hclose, hsep, hend, hcell, hne]
                · refine .failed (lit "expected comma or ')' in values tuple") ?_ ?_
                  · simp [stopsAt_cons, hclose, hmany, hvalue, hmapped, hskip, hcomma, hend]
                  · simp [hdrop, SqlCodeGenerator.tupleValues, hclose, hsep, hcomma, hend]

theorem valuesTuples_eq {tableIndex : Fin maxTables} {table : Table} {map : ColumnMap}
    {p : CString} {batch : InsertBatch} (hp : p.length < fuel) :
    valuesTuples fuel tableIndex table map p batch =
      .ofOutcome .columnMap
        (SqlCodeGenerator.valuesTuples tableIndex table map p batch) := by
  unfold valuesTuples
  refine CheckedRun.loop_eq (fun state : CString × InsertBatch => state.1.length)
    (f := fun state => CheckedRun.ofOutcome ParserArray.columnMap
      (SqlCodeGenerator.valuesTuples tableIndex table map state.1 state.2))
    (s := (p, batch)) (fun state hlt => ?_) hp
  obtain ⟨p, batch⟩ := state
  dsimp only at hlt
  have hstart := length_skipWs_le p
  have hskip := skipWs_eq hlt
  have hround := @valuesTuples_round tableIndex table map p batch
  cases hbegin : SqlCodeGenerator.skipWs p with
  | nil =>
      rw [hbegin] at hskip hround
      exact .stop batch (by simp [hskip]) (by simp [hround])
  | cons c rest =>
      rw [hbegin] at hskip hround
      rw [hbegin, List.length_cons] at hstart
      dsimp only at hround
      by_cases hcomma : c = comma
      · rw [if_pos hcomma] at hround
        refine .next (rest, batch) ?_ trivial hstart ?_
        · simp [hskip, hcomma, advance]
        · simp [hround]
      · rw [if_neg hcomma] at hround
        by_cases hopen : c = openParen
        · subst hopen
          rw [if_neg (not_not.mpr rfl)] at hround
          by_cases hroom : batch.count ≥ maxBatchRows
          · rw [if_pos hroom] at hround
            refine .failed (lit "too many rows in insert batch") ?_ ?_
            · simp [hskip, hcomma, advance, hroom]
            · simp [hround]
          · rw [if_neg hroom] at hround
            have hinside : (CheckedRun.inside ParserArray.batchRows batch.count maxBatchRows :
                Run Unit) = .done () := CheckedRun.inside_of_lt (Nat.lt_of_not_le hroom)
            have htuple := tupleValues_eq map (blankRow table) (p := rest)
              (Nat.lt_of_succ_le (hstart.trans (Nat.le_of_lt hlt)))
            cases hread : SqlCodeGenerator.tupleValues map.items (blankRow table) rest with
            | error message =>
                rw [hread] at htuple hround
                refine .failed message ?_ ?_
                · simp [hskip, hcomma, advance, hroom, hinside, htuple]
                · simp [hround]
            | fault =>
                rw [hread] at htuple hround
                refine .outside .columnMap ?_ ?_
                · simp [hskip, hcomma, advance, hroom, hinside, htuple]
                · simp [hround]
            | ok found =>
                obtain ⟨row, after⟩ := found
                rw [hread] at htuple hround
                have hafter := length_tupleValues_lt hread
                have hfits : (batch.push? ⟨tableIndex, row⟩).isSome :=
                  CountedArray.isSome_push?_iff.mpr (Nat.lt_of_not_le hroom)
                obtain ⟨batch₁, hpush⟩ := Option.isSome_iff_exists.mp hfits
                refine .next (after, batch₁) ?_ trivial ?_ ?_
                · simp [hskip, hcomma, advance, hroom, hinside, htuple, hpush]
                · show after.length < p.length
                  omega
                · simp [hround, hpush]
        · rw [if_pos hopen] at hround
          refine .failed (lit "expected '(' before values tuple") ?_ ?_
          · simp [hskip, hcomma, hopen]
          · simp [hround]

/-! ## Statements -/

theorem insertTarget_eq {tables : Tables} {p : CString} (hp : p.length < fuel) :
    insertTarget fuel tables p =
      .ofOutcome .columnMap (SqlCodeGenerator.insertTarget tables p) := by
  unfold insertTarget SqlCodeGenerator.insertTarget
  rw [ciStarts_eq hp, CheckedRun.done_bind]
  by_cases hinsert : SqlCodeGenerator.ciStarts p (lit "insert") = true
  · have hsix : 6 ≤ p.length := length_le_of_ciStarts hinsert
    have hdrop : (p.drop 6).length < fuel := by
      rw [List.length_drop]
      omega
    have hskip : (SqlCodeGenerator.skipWs (p.drop 6)).length < fuel :=
      Nat.lt_of_le_of_lt (length_skipWs_le _) hdrop
    rw [if_neg (not_not.mpr hinsert), advanceBy_eq hsix, CheckedRun.done_bind, skipWs_eq hdrop,
      CheckedRun.done_bind, ciStarts_eq hskip, CheckedRun.done_bind]
    simp only [Outcome.failWhen, hinsert, not_true_eq_false, if_false, Outcome.ok_bind]
    generalize SqlCodeGenerator.skipWs (p.drop 6) = q at hskip ⊢
    by_cases hinto : SqlCodeGenerator.ciStarts q (lit "into") = true
    -- both words are there, so the pointer moves over them inside the text
    · have hfour : 4 ≤ q.length := length_le_of_ciStarts hinto
      have hname : (q.drop 4).length < fuel := by
        rw [List.length_drop]
        omega
      simp only [hinto, not_true_eq_false, if_false, Outcome.ok_bind, advanceBy_eq hfour,
        CheckedRun.done_bind, parseIdentifier_eq hname (by decide : 0 < maxName)]
      cases hread : SqlCodeGenerator.parseIdentifier (q.drop 4) maxName with
      | none => rfl
      | some found =>
          obtain ⟨tableName, after⟩ := found
          dsimp only
          cases hindex : findTable tables tableName with
          | none => rfl
          | some tableIndex =>
              obtain ⟨table, htable, -⟩ := CountedArray.findPlace?_eq_some hindex
              have hafter := length_parseIdentifier_lt hread
              simp only [htable, skipWs_eq (Nat.lt_trans hafter hname), CheckedRun.done_bind,
                CheckedRun.ofOutcome_ok]
    · simp [hinto]
  · simp [hinsert, Outcome.failWhen]

theorem insertValues_eq {target : InsertTarget} {map : ColumnMap} {p : CString}
    {batch : InsertBatch} (hp : p.length < fuel) :
    insertValues fuel target map p batch =
      .ofOutcome .columnMap (SqlCodeGenerator.insertValues target map p batch) := by
  unfold insertValues SqlCodeGenerator.insertValues
  rw [ciFind_eq hp, CheckedRun.done_bind]
  cases hfind : SqlCodeGenerator.ciFind p (lit "values") with
  | none => rfl
  | some values =>
      obtain ⟨hstarts, skipped, hsplit⟩ := ciFind_spec hfind
      have hsix : 6 ≤ values.length := length_le_of_ciStarts hstarts
      have hvalues : (values.drop 6).length < fuel := by
        rw [hsplit, List.length_append] at hp
        rw [List.length_drop]
        omega
      dsimp only
      rw [advanceBy_eq hsix, CheckedRun.done_bind, valuesTuples_eq hvalues]

theorem length_after_insertTarget {tables : Tables} {p : CString} {target : InsertTarget}
    (h : SqlCodeGenerator.insertTarget tables p = .ok target) :
    target.after.length ≤ p.length := by
  obtain ⟨-, -, after, hname, -, -, hafter⟩ := insertTarget_eq_ok_iff.mp h
  have hlt := length_parseIdentifier_lt hname
  have hinto := length_skipWs_le (p.drop 6)
  have hskip := length_skipWs_le after
  rw [List.length_drop] at hlt hinto
  rw [hafter]
  omega

theorem ColumnsRead.length_lt {table : Table} {p rest : CString} {cis : List (Fin maxColumns)}
    (h : ColumnsRead table p cis rest) : rest.length < p.length := by
  induction h with
  | close rest => exact Nat.lt_succ_self rest.length
  | @column p name after next rest ci cis hopen hname hcolumn hsep hrest ih =>
      have hlt := length_parseIdentifier_lt hname
      have hskip := length_skipWs_le after
      rw [hsep, List.length_cons] at hskip
      omega
  | @last p name after rest ci hopen hname hcolumn hsep =>
      have hlt := length_parseIdentifier_lt hname
      have hskip := length_skipWs_le after
      rw [hsep, List.length_cons] at hskip
      omega

theorem ColumnsChosen.length_le {table : Table} {p rest : CString} {cis : List (Fin maxColumns)}
    (h : ColumnsChosen table p cis rest) : rest.length ≤ p.length := by
  cases h with
  | listed hread => exact Nat.le_succ_of_le (Nat.le_of_lt (ColumnsRead.length_lt hread))
  | natural hopen => exact Nat.le_refl _

theorem parseInsertStatement_eq {tables : Tables} {stmt : CString} {batch : InsertBatch}
    (hstmt : stmt.length < fuel) :
    parseInsertStatement fuel tables stmt batch =
      .ofOutcome .columnMap (SqlCodeGenerator.parseInsertStatement tables stmt batch) := by
  have hskip : (SqlCodeGenerator.skipWs stmt).length < fuel :=
    Nat.lt_of_le_of_lt (length_skipWs_le stmt) hstmt
  unfold parseInsertStatement SqlCodeGenerator.parseInsertStatement
  rw [skipWs_eq hstmt, CheckedRun.done_bind]
  dsimp only
  by_cases hblank : SqlCodeGenerator.skipWs stmt = []
  · rw [if_pos hblank, if_pos (List.head?_eq_none_iff.mpr hblank)]
    rfl
  · rw [if_neg hblank, if_neg (mt List.head?_eq_none_iff.mp hblank), insertTarget_eq hskip,
      CheckedRun.ofOutcome_bind]
    cases htarget : SqlCodeGenerator.insertTarget tables (SqlCodeGenerator.skipWs stmt) with
    | error message => rfl
    | fault => rfl
    | ok target =>
        have hafter : target.after.length < fuel :=
          Nat.lt_of_le_of_lt (length_after_insertTarget htarget) hskip
        rw [CheckedRun.ofOutcome_ok, CheckedRun.done_bind, CheckedRun.done_bind,
          columnMap_eq hafter, CheckedRun.ofOutcome_bind]
        cases hmap : SqlCodeGenerator.columnMap target.table target.tableName target.after with
        | error message => rfl
        | fault => rfl
        | ok found =>
            obtain ⟨map, rest⟩ := found
            have hrest : rest.length < fuel :=
              Nat.lt_of_le_of_lt (ColumnsChosen.length_le (columnMap_eq_ok_iff.mp hmap)) hafter
            exact insertValues_eq hrest

/-! ## Batches -/

/-- What `parse_batch` has still to do: the statement that it is in, of which it has passed
`before`, and the statements after it. -/
def remaining (before : CString) (s : SplitState) (p : CString) : List CString :=
  (cutText splitStep splitCuts s p).modifyHead (before ++ ·)

theorem remaining_nil (before : CString) (s : SplitState) : remaining before s [] = [before] := by
  simp [remaining, cutText]

theorem remaining_fresh (s : SplitState) (p : CString) :
    remaining [] s p = cutText splitStep splitCuts s p := by
  unfold remaining
  cases cutText splitStep splitCuts s p <;> simp

theorem remaining_cons (before : CString) (s : SplitState) (c : CChar) (p : CString) :
    remaining before s (c :: p) =
      if splitCuts (splitStep s c) c then
        before :: cutText splitStep splitCuts (splitStep s c) p
      else
        remaining (before ++ [c]) (splitStep s c) p := by
  unfold remaining
  rw [cutText]
  by_cases hcut : splitCuts (splitStep s c) c = true
  · simp [hcut]
  · rw [if_neg hcut, if_neg hcut]
    cases hpieces : cutText splitStep splitCuts (splitStep s c) p with
    | nil => exact absurd hpieces (cutText_ne_nil _ _)
    | cons piece pieces => simp [glue]

/-- The statements after the first one are parsed when it has been. -/
theorem parseStatements_cons_bind (tables : Tables) (text : CString) (texts : List CString)
    (batch : InsertBatch) :
    parseStatements tables (text :: texts) batch =
      parseStatements tables [text] batch >>= parseStatements tables texts := by
  rw [parseStatements, parseStatements]
  split
  · rfl
  · split
    · rfl
    · rw [bind_assoc]
      rfl

theorem parseStatement_eq (tables : Tables) {start : CString} (p : CString)
    (batch : InsertBatch) (hstart : start.length < fuel) :
    parseStatement fuel tables start p batch =
      .ofOutcome .columnMap
        (parseStatements tables [start.take (start.length - p.length)] batch) := by
  have hlen : (start.take (start.length - p.length)).length = start.length - p.length := by
    rw [List.length_take]
    omega
  unfold parseStatement
  rw [parseStatements, hlen]
  dsimp only
  by_cases hlarge : start.length - p.length ≥ maxStatement
  · rw [if_pos hlarge, if_pos hlarge]
    rfl
  · have htext : (start.take (start.length - p.length)).length < fuel := by omega
    have htrimmed : (SqlCodeGenerator.trimInplace
        (start.take (start.length - p.length))).length < fuel :=
      Nat.lt_of_le_of_lt (length_trimInplace_le _) htext
    rw [if_neg hlarge, if_neg hlarge, CheckedRun.inside_of_lt (Nat.lt_of_not_le hlarge),
      CheckedRun.done_bind, trimInplace_eq htext, CheckedRun.done_bind]
    by_cases hempty : SqlCodeGenerator.trimInplace (start.take (start.length - p.length)) = []
    · rw [if_pos hempty, if_pos hempty]
      rfl
    · rw [if_neg hempty, if_neg hempty, parseInsertStatement_eq htrimmed]
      exact congrArg _ (bind_pure _).symm

/-- The character before a position of a text, none before its first one. -/
def previousChar (sql p : CString) : Option CChar :=
  if p.length < sql.length then sql[sql.length - p.length - 1]? else none

theorem previousChar_self (sql : CString) : previousChar sql sql = none :=
  if_neg (Nat.lt_irrefl _)

theorem previousChar_of_suffix {sql q : CString} {c : CChar} (h : c :: q <:+ sql) :
    previousChar sql q = some c := by
  obtain ⟨done, rfl⟩ := h
  have hlt : q.length < (done ++ c :: q).length := by
    rw [List.length_append, List.length_cons]
    omega
  have hindex : (done ++ c :: q).length - q.length - 1 = done.length := by
    rw [List.length_append, List.length_cons]
    omega
  rw [previousChar, if_pos hlt, hindex]
  simp

theorem toggles_eq {sql p : CString} (h : p <:+ sql) :
    toggles sql p =
      .done (decide (p.head? = some apostrophe ∧ previousChar sql p ≠ some backslash)) := by
  unfold toggles
  by_cases hhead : p.head? = some apostrophe
  · rw [if_pos hhead]
    by_cases hfirst : p.length = sql.length
    · have hnone : previousChar sql p = none := if_neg (by omega)
      simp [hhead, hfirst, hnone]
    · have hlt : p.length < sql.length := Nat.lt_of_le_of_ne h.length_le hfirst
      have hbefore : charBefore sql p = .done (previousChar sql p) := by
        simp [charBefore, previousChar, hlt]
      simp [hhead, hfirst, hbefore]
  · simp [hhead]

/-- What the loop of `parse_batch` computes from its variables. -/
def scanned (tables : Tables) (sql : CString) (s : BatchScan) : Run InsertBatch :=
  .ofOutcome .columnMap (parseStatements tables
    (remaining (s.start.take (s.start.length - s.p.length)) ⟨s.inString, previousChar sql s.p⟩ s.p)
    s.batch)

/-- The two pointers of the loop of `parse_batch` are in the text and in order. -/
structure BatchScan.Within (sql : CString) (s : BatchScan) : Prop where
  start : s.start <:+ sql
  p : s.p <:+ s.start

theorem batchRound_leads {tables : Tables} {sql : CString} {s : BatchScan} (hs : s.Within sql)
    (hsql : sql.length < fuel) :
    CheckedRun.Leads (batchRound fuel tables sql) (scanned tables sql) .done (BatchScan.Within sql)
      (fun s => s.p.length) s := by
  obtain ⟨p, start, inString, batch⟩ := s
  obtain ⟨hstart, hp⟩ := hs
  dsimp only at hstart hp
  have htoggles := toggles_eq (hp.trans hstart)
  have hstmt := parseStatement_eq tables p batch
    (Nat.lt_of_le_of_lt hstart.length_le hsql)
  cases p with
  | nil =>
      have hscanned : scanned tables sql ⟨[], start, inString, batch⟩ = .ofOutcome .columnMap
          (parseStatements tables [start.take (start.length - ([] : CString).length)] batch) := by
        rw [scanned, remaining_nil]
      generalize parseStatements tables [start.take (start.length - ([] : CString).length)] batch =
        outcome at hstmt hscanned
      cases outcome with
      | error message =>
          exact .failed message (by simp [batchRound, htoggles, hstmt])
            (by simp [hscanned])
      | fault =>
          exact .outside .columnMap (by simp [batchRound, htoggles, hstmt])
            (by simp [hscanned])
      | ok batch₁ =>
          exact .stop batch₁ (by simp [batchRound, htoggles, hstmt])
            (by simp [hscanned])
  | cons c q =>
      have hprevious := previousChar_of_suffix (hp.trans hstart)
      have hq : q <:+ sql := (List.suffix_cons c q).trans (hp.trans hstart)
      -- what `in_string` becomes is what the splitter remembers behind the character
      generalize hstate : splitStep ⟨inString, previousChar sql (c :: q)⟩ c = state
      have hafter : state = ⟨state.inString, previousChar sql q⟩ := by
        rw [hprevious, ← hstate]
        rfl
      have hstring : (if decide (c = apostrophe ∧
          previousChar sql (c :: q) ≠ some backslash) = true then !inString else inString) =
          state.inString := by
        rw [← hstate]
        simp [splitStep]
      have hcuts : splitCuts state c = true ↔ c = semicolon ∧ state.inString = false := by
        simp [splitCuts]
      have hlt : q.length < (c :: q).length := Nat.lt_succ_self q.length
      have hbody : batchRound fuel tables sql ⟨c :: q, start, inString, batch⟩ =
          if c = semicolon ∧ state.inString = false then
            parseStatement fuel tables start (c :: q) batch >>= fun batch =>
              .done (.next ⟨q, q, state.inString, batch⟩)
          else
            .done (.next ⟨q, start, state.inString, batch⟩) := by
        unfold batchRound
        dsimp only
        simp only [List.head?_cons, Option.some.injEq] at htoggles
        rw [htoggles, CheckedRun.done_bind, hstring]
        simp only [List.head?_cons, Option.some.injEq, reduceCtorEq, or_false, if_false, advance,
          CheckedRun.done_bind]
      by_cases hcut : c = semicolon ∧ state.inString = false
      · have hscanned : scanned tables sql ⟨c :: q, start, inString, batch⟩ = .ofOutcome .columnMap
            (parseStatements tables [start.take (start.length - (c :: q).length)] batch >>=
              parseStatements tables (cutText splitStep splitCuts state q)) := by
          unfold scanned
          dsimp only
          rw [remaining_cons, hstate, if_pos (hcuts.mpr hcut), parseStatements_cons_bind]
        generalize parseStatements tables [start.take (start.length - (c :: q).length)] batch =
          outcome at hstmt hscanned
        cases outcome with
        | error message =>
            exact .failed message (by rw [hbody, if_pos hcut, hstmt]; rfl)
              (by simp [hscanned])
        | fault =>
            exact .outside .columnMap (by rw [hbody, if_pos hcut, hstmt]; rfl)
              (by simp [hscanned])
        | ok batch₁ =>
            refine .next ⟨q, q, state.inString, batch₁⟩ ?_
              ⟨hq, List.suffix_refl q⟩ hlt ?_
            · rw [hbody, if_pos hcut, hstmt]
              rfl
            · rw [hscanned, scanned]
              dsimp only
              rw [Nat.sub_self, List.take_zero, remaining_fresh, ← hafter]
              rfl
      · refine .next ⟨q, start, state.inString, batch⟩ ?_
          ⟨hstart, (List.suffix_cons c q).trans hp⟩ hlt ?_
        · rw [hbody, if_neg hcut]
        · have hbefore : start.take (start.length - q.length) =
              start.take (start.length - (c :: q).length) ++ [c] := by
            obtain ⟨done, rfl⟩ := hp
            have hcount : (done ++ c :: q).length - (c :: q).length = done.length := by
              rw [List.length_append, Nat.add_sub_cancel]
            have hcount' : (done ++ c :: q).length - q.length = done.length + 1 := by
              rw [List.length_append, List.length_cons]
              omega
            rw [hcount, hcount', List.take_left' rfl, List.take_length_add_append]
            rfl
          unfold scanned
          dsimp only
          rw [remaining_cons, hstate, if_neg (mt hcuts.mp hcut), hbefore, ← hafter]

theorem parseBatch_eq {tables : Tables} {sql : CString} (hsql : sql.length < fuel) :
    parseBatch fuel tables sql =
      .ofOutcome .columnMap (SqlCodeGenerator.parseBatch tables sql) := by
  have hbegin : scanned tables sql ⟨sql, sql, false, .empty⟩ =
      .ofOutcome .columnMap (parseStatements tables (splitStatements sql) .empty) := by
    unfold scanned
    dsimp only
    rw [Nat.sub_self, List.take_zero, remaining_fresh, previousChar_self]
    rfl
  have hloop : CheckedRun.loop (batchRound fuel tables sql) fuel ⟨sql, sql, false, .empty⟩ =
      .ofOutcome .columnMap (parseStatements tables (splitStatements sql) .empty) := by
    rw [← hbegin]
    exact CheckedRun.loop_eq_of_invariant (BatchScan.Within sql) (fun s => s.p.length)
      (fun s hs _ => batchRound_leads hs hsql)
      ⟨List.suffix_refl sql, List.suffix_refl sql⟩ hsql
  unfold parseBatch SqlCodeGenerator.parseBatch
  rw [hloop, CheckedRun.ofOutcome_bind]
  refine congrArg _ (funext fun batch => ?_)
  split
  · rfl
  · rfl

end Pointers
end SqlCodeGenerator
