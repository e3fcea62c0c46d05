import SqlCodeGenerator.InsertDerivations

/-!
# What the scanners of the INSERT parser read

The scanners described by the text they stop at: an identifier, quoted or bare
(`parseIdentifier_eq_some_iff`), a word found in a text (`ciFind_eq_some`), and
what text added behind a scan changes.  A scan that stopped inside the text
reads the same with more text behind it.
-/

namespace SqlCodeGenerator

open Library

variable {p extra : CString}

/-! ## White space -/

theorem skipWs_append (h : skipWs p ≠ []) : skipWs (p ++ extra) = skipWs p ++ extra :=
  dropWhile_append_stop h

theorem skipWs_append_of_blank (h : skipWs p = []) : skipWs (p ++ extra) = skipWs extra := by
  unfold skipWs at h ⊢
  rw [List.dropWhile_append, h]
  simp

theorem skipWs_cons_of_not_isSpace {c : CChar} (hc : isSpace c = false) :
    skipWs (c :: p) = c :: p := by
  simp [skipWs, hc]

theorem skipWs_skipWs (p : CString) : skipWs (skipWs p) = skipWs p :=
  dropWhile_of_head fun _ hc => test_head_dropWhile (List.eq_cons_of_mem_head? hc)

theorem ne_nil_of_skipWs_ne_nil (h : skipWs p ≠ []) : p ≠ [] := by
  rintro rfl
  exact h rfl

theorem length_trimInplace_le (text : CString) : (trimInplace text).length ≤ text.length :=
  (List.dropWhile_sublist isSpace).length_le.trans (List.rdropWhile_prefix isSpace text).length_le

/-! ## Words -/

theorem ciStarts_append_of_le {s word : CString} (h : word.length ≤ s.length) :
    ciStarts (s ++ extra) word = ciStarts s word := by
  induction s generalizing word with
  | nil =>
      obtain rfl : word = [] := List.length_eq_zero_iff.mp (Nat.le_zero.mp h)
      cases extra <;> rfl
  | cons c s ih =>
      cases word with
      | nil => rfl
      | cons d word =>
          rw [List.cons_append, ciStarts, ciStarts, ih (Nat.le_of_succ_le_succ h)]

theorem length_le_of_ciStarts {s word : CString} (h : ciStarts s word = true) :
    word.length ≤ s.length := by
  induction s generalizing word with
  | nil =>
      cases word with
      | nil => exact Nat.le_refl _
      | cons d word => simp [ciStarts] at h
  | cons c s ih =>
      cases word with
      | nil => exact Nat.zero_le _
      | cons d word =>
          have htail : ciStarts s word = true := by
            simp only [ciStarts, Bool.and_eq_true] at h
            exact h.2
          exact Nat.succ_le_succ (ih htail)

theorem ciStarts_append {s word : CString} (h : ciStarts s word = true) :
    ciStarts (s ++ extra) word = true := by
  rw [ciStarts_append_of_le (length_le_of_ciStarts h), h]

theorem ciFind_nil_eq_some_iff {word v : CString} :
    ciFind [] word = some v ↔ word = [] ∧ v = [] := by
  cases word with
  | nil => simp [ciFind, eq_comm]
  | cons d word => simp [ciFind]

theorem ciFind_cons (c : CChar) (p word : CString) :
    ciFind (c :: p) word =
      if ciStarts (c :: p) word = true then some (c :: p) else ciFind p word := by
  cases word with
  | nil => rfl
  | cons d word => rw [ciFind]; simp

/-- Where a word is found, it stands, and it is a suffix of the text. -/
theorem ciFind_spec {word v : CString} (h : ciFind p word = some v) :
    ciStarts v word = true ∧ ∃ skipped, p = skipped ++ v := by
  induction p with
  | nil =>
      obtain ⟨rfl, rfl⟩ := ciFind_nil_eq_some_iff.mp h
      exact ⟨rfl, [], rfl⟩
  | cons c p ih =>
      rw [ciFind_cons] at h
      by_cases hstarts : ciStarts (c :: p) word = true
      · obtain rfl : c :: p = v := by simpa [hstarts] using h
        exact ⟨hstarts, [], rfl⟩
      · rw [if_neg hstarts] at h
        obtain ⟨hv, skipped, rfl⟩ := ih h
        exact ⟨hv, c :: skipped, rfl⟩

/-- A word found in a text is found at the same place with more text behind. -/
theorem ciFind_append {word v : CString} (h : ciFind p word = some v) :
    ciFind (p ++ extra) word = some (v ++ extra) := by
  induction p with
  | nil =>
      obtain ⟨rfl, rfl⟩ := ciFind_nil_eq_some_iff.mp h
      cases extra <;> rfl
  | cons c p ih =>
      rw [ciFind_cons] at h
      rw [List.cons_append, ciFind_cons]
      by_cases hstarts : ciStarts (c :: p) word = true
      · obtain rfl : c :: p = v := by simpa [hstarts] using h
        have hextra : ciStarts (c :: (p ++ extra)) word = true := ciStarts_append hstarts
        rw [if_pos hextra, List.cons_append]
      · rw [if_neg hstarts] at h
        -- the word is found further on, so the text that remains is as long as the word
        have hroom : word.length ≤ (c :: p).length := by
          obtain ⟨hv, skipped, hsplit⟩ := ciFind_spec h
          have hword := length_le_of_ciStarts hv
          have hlen := congrArg List.length hsplit
          rw [List.length_append] at hlen
          rw [List.length_cons]
          omega
        have hextra : ciStarts (c :: (p ++ extra)) word = ciStarts (c :: p) word :=
          ciStarts_append_of_le hroom
        rw [hextra, if_neg hstarts, ih h]

/-- White space has no letter case. -/
theorem toLower_of_isSpace {c : CChar} (h : isSpace c = true) : toLower c = c := by
  have hnot : ¬ (65 ≤ c.val ∧ c.val ≤ 90) := by
    rintro ⟨hlower, -⟩
    simp only [isSpace, Bool.or_eq_true, beq_iff_eq, Bool.and_eq_true, decide_eq_true_eq] at h
    rw [UInt8.le_iff_toNat_le] at hlower
    rcases h with hblank | ⟨-, hcontrol⟩
    · rw [hblank] at hlower
      exact absurd hlower (by decide)
    · rw [UInt8.le_iff_toNat_le] at hcontrol
      exact absurd (hlower.trans hcontrol) (by decide)
  rw [toLower, dif_neg hnot]

/-- A word that does not begin with white space does not stand where white space
does. -/
theorem isSpace_of_ciStarts_cons {c d : CChar} {word : CString}
    (h : ciStarts (c :: p) (d :: word) = true) (hd : isSpace (toLower d) = false) :
    isSpace c = false := by
  have hc : toLower c = toLower d := by
    simp only [ciStarts, Bool.and_eq_true, decide_eq_true_eq] at h
    exact h.1
  by_contra hspace
  have hsame := toLower_of_isSpace (by simpa using hspace : isSpace c = true)
  rw [← hc, hsame] at hd
  exact hspace hd

/-- A word that stands behind blanks is found there. -/
theorem ciFind_skipWs {d : CChar} {word : CString} (hd : isSpace (toLower d) = false)
    (h : ciStarts (skipWs p) (d :: word) = true) :
    ciFind p (d :: word) = some (skipWs p) := by
  induction p with
  | nil => simp [skipWs, ciStarts] at h
  | cons c p ih =>
      rw [ciFind_cons]
      by_cases hc : isSpace c = true
      · have hskip : skipWs (c :: p) = skipWs p := by simp [skipWs, hc]
        rw [hskip] at h ⊢
        have hno : ¬ ciStarts (c :: p) (d :: word) = true := by
          intro hstarts
          rw [isSpace_of_ciStarts_cons hstarts hd] at hc
          cases hc
        rw [if_neg hno, ih h]
      · have hskip : skipWs (c :: p) = c :: p := skipWs_cons_of_not_isSpace (by simpa using hc)
        rw [hskip] at h ⊢
        rw [if_pos h]

/-- A word stands at no blank. -/
theorem skipWs_of_ciStarts {d : CChar} {word : CString} (hd : isSpace (toLower d) = false)
    (h : ciStarts p (d :: word) = true) : skipWs p = p := by
  cases p with
  | nil => rfl
  | cons c p => exact skipWs_cons_of_not_isSpace (isSpace_of_ciStarts_cons h hd)

theorem head?_of_ciStarts_values {p : CString} (h : ciStarts p (lit "values") = true) :
    p.head? ≠ some openParen := by
  cases p with
  | nil => simp
  | cons c p =>
      intro hc
      obtain rfl : c = openParen := by simpa using hc
      have hboth : (decide (toLower openParen = toLower (chr 'v')) && ciStarts p (lit "alues")) =
          true := h
      exact absurd (Bool.and_eq_true_iff.mp hboth).1 (by decide)

/-! ## Identifiers -/

theorem isIdentifierQuote_of_isIdentifierChar {c : CChar} (h : isIdentifierChar c = true) :
    isIdentifierQuote c = false := by
  by_contra hquote
  have hquote' : isIdentifierQuote c = true := by simpa using hquote
  have hc : c = doubleQuote ∨ c = backtick := by
    simpa [isIdentifierQuote] using hquote'
  rcases hc with rfl | rfl
  · exact absurd h (by decide)
  · exact absurd h (by decide)

/-- An identifier is read where it stands behind blanks: in quotes that do not
occur in it, or bare, as far as its characters go or the buffer has room. -/
theorem parseIdentifier_eq_some_iff {outLen : Nat} {name after : CString} :
    parseIdentifier p outLen = some (name, after) ↔
      name ≠ [] ∧ name.length ≤ outLen - 1 ∧
        ((∃ quote, isIdentifierQuote quote = true ∧ quote ∉ name ∧
            skipWs p = quote :: (name ++ quote :: after)) ∨
          ((∀ c ∈ name, isIdentifierChar c = true) ∧ skipWs p = name ++ after ∧
            ∀ c ∈ after.head?, isIdentifierChar c = false ∨ name.length = outLen - 1)) := by
  unfold parseIdentifier
  constructor
  · intro h
    split at h
    · cases h
    · next c rest hp =>
        split at h
        · -- in quotes: the scan stops at a quote, or the buffer is full and the
          -- character behind it is tested for the quote
          next hquote =>
            split at h
            · cases h
            · next name' d after' hspan =>
                obtain ⟨hrest, hname, hlen, -⟩ := spanUpTo_eq_iff.mp hspan
                split at h
                · next hclose =>
                    obtain ⟨rfl, hne⟩ := hclose
                    simp only [Option.some.injEq, Prod.mk.injEq] at h
                    obtain ⟨rfl, rfl⟩ := h
                    have hfree : d ∉ name' := fun hd => by simpa using hname d hd
                    exact ⟨hne, hlen, Or.inl ⟨d, hquote, hfree, by rw [hp, hrest]⟩⟩
                · cases h
        · split at h
          next name' after' hspan =>
            obtain ⟨hrest, hname, hlen, hstop⟩ := spanUpTo_eq_iff.mp hspan
            split at h
            · next hne =>
                simp only [Option.some.injEq, Prod.mk.injEq] at h
                obtain ⟨rfl, rfl⟩ := h
                exact ⟨hne, hlen, Or.inr ⟨hname, by rw [hp, hrest], hstop⟩⟩
            · cases h
  · rintro ⟨hne, hlen, ⟨quote, hquote, hfree, hp⟩ | ⟨hname, hp, hstop⟩⟩
    · have hspan : spanUpTo (fun d => d ≠ quote) (outLen - 1) (name ++ quote :: after) =
          (name, quote :: after) := by
        refine spanUpTo_word (fun c hc => ?_) hlen (by simp)
        have hcne : c ≠ quote := fun hcq => hfree (hcq ▸ hc)
        simpa using hcne
      simp only [hp, hquote, if_true, hspan]
      simp [hne]
    · cases hcons : name with
      | nil => exact absurd hcons hne
      | cons c name' =>
          have hc : isIdentifierChar c = true := hname c (by simp [hcons])
          have hspan := spanUpTo_word hname hlen hstop
          rw [hcons, List.cons_append] at hp hspan
          simp [hp, isIdentifierQuote_of_isIdentifierChar hc, hspan]

theorem ne_nil_of_parseIdentifier {outLen : Nat} {found : CString × CString}
    (h : parseIdentifier p outLen = some found) : p ≠ [] := by
  rintro rfl
  simp [parseIdentifier, skipWs] at h

/-- An identifier with text behind it is read the same with more text. -/
theorem parseIdentifier_append {outLen : Nat} {name after : CString}
    (h : parseIdentifier p outLen = some (name, after)) (hafter : after ≠ []) :
    parseIdentifier (p ++ extra) outLen = some (name, after ++ extra) := by
  obtain ⟨hne, hlen, hform⟩ := parseIdentifier_eq_some_iff.mp h
  refine parseIdentifier_eq_some_iff.mpr ⟨hne, hlen, ?_⟩
  rcases hform with ⟨quote, hquote, hfree, hp⟩ | ⟨hname, hp, hstop⟩
  · have hskip : skipWs p ≠ [] := by simp [hp]
    exact Or.inl ⟨quote, hquote, hfree, by simp [skipWs_append hskip, hp]⟩
  · have hskip : skipWs p ≠ [] := by simp [hp, hne]
    refine Or.inr ⟨hname, by simp [skipWs_append hskip, hp], ?_⟩
    rwa [List.head?_append_of_ne_nil _ hafter]

/-! ## Values -/

theorem quotedText_append (h : (quotedText p).2 ≠ []) :
    quotedText (p ++ extra) = ((quotedText p).1, (quotedText p).2 ++ extra) := by
  induction p using quotedText_induction with
  | nil => exact absurd rfl h
  | char c p hc ih =>
      rw [quotedText_cons hc] at h ⊢
      rw [List.cons_append, quotedText_cons hc, ih h]
  | doubled p ih =>
      rw [quotedText_doubled] at h ⊢
      rw [List.cons_append, List.cons_append, quotedText_doubled, ih h]
  | close p hp =>
      rw [quotedText_close hp] at h ⊢
      have hhead : (p ++ extra).head? ≠ some apostrophe := by
        rwa [List.head?_append_of_ne_nil _ h]
      rw [List.cons_append, quotedText_close hhead]

theorem valueText_append (h : (valueText p).2 ≠ []) :
    valueText (p ++ extra) = ((valueText p).1, (valueText p).2 ++ extra) := by
  cases p with
  | nil => exact absurd rfl h
  | cons c q =>
      by_cases hc : c = apostrophe
      · simp only [valueText, List.cons_append, if_pos hc] at h ⊢
        exact quotedText_append h
      · simp only [valueText, List.cons_append, if_neg hc] at h ⊢
        have hdrop : ((c :: q) ++ extra).dropWhile isBareValueChar =
            (c :: q).dropWhile isBareValueChar ++ extra := dropWhile_append_stop h
        have htake : ((c :: q) ++ extra).takeWhile isBareValueChar =
            (c :: q).takeWhile isBareValueChar := takeWhile_append_stop h
        rw [List.cons_append] at hdrop htake
        rw [hdrop, htake]

/-- A value that ends inside the text is read the same with more text behind. -/
theorem parseValue_append (h : (parseValue p).2 ≠ []) :
    parseValue (p ++ extra) = ((parseValue p).1, (parseValue p).2 ++ extra) := by
  have hskip : skipWs p ≠ [] := by
    intro hblank
    simp [parseValue, hblank, valueText] at h
  have hvalue : (valueText (skipWs p)).2 ≠ [] := h
  simp only [parseValue, skipWs_append hskip, valueText_append hvalue]

/-! ## The loops -/

/-- The separator behind an item, with more text behind it. -/
theorem skipWs_append_cons {c : CChar} {next : CString} (h : skipWs p = c :: next) :
    skipWs (p ++ extra) = c :: (next ++ extra) := by
  rw [skipWs_append (by simp [h]), h, List.cons_append]

/-- `NamesRead p names after`: from behind the opening parenthesis at `p`, the
names `names` are listed, whatever table they are meant for, and the list ends at
`after`. -/
inductive NamesRead : CString → List CString → CString → Prop
  | close (rest : CString) : NamesRead (closeParen :: rest) [] rest
  | name {p name after next rest : CString} {names : List CString}
      (hopen : p.head? ≠ some closeParen)
      (hname : parseIdentifier p maxName = some (name, after))
      (hsep : skipWs after = comma :: next)
      (hrest : NamesRead next names rest) :
      NamesRead p (name :: names) rest
  | last {p name after rest : CString}
      (hopen : p.head? ≠ some closeParen)
      (hname : parseIdentifier p maxName = some (name, after))
      (hsep : skipWs after = closeParen :: rest) :
      NamesRead p [name] rest

/-- A column list is a list of names, each of which is that of a column. -/
theorem columnsRead_iff {table : Table} {cis : List (Fin maxColumns)} {after : CString} :
    ColumnsRead table p cis after ↔
      ∃ names, NamesRead p names after ∧
        List.Forall₂ (fun name ci => findColumn table name = some ci) names cis := by
  constructor
  · intro h
    induction h with
    | close rest => exact ⟨[], .close rest, .nil⟩
    | @column p name after next rest ci cis hopen hname hcolumn hsep hrest ih =>
        obtain ⟨names, hnames, hcolumns⟩ := ih
        exact ⟨name :: names, .name hopen hname hsep hnames, .cons hcolumn hcolumns⟩
    | @last p name after rest ci hopen hname hcolumn hsep =>
        exact ⟨[name], .last hopen hname hsep, .cons hcolumn .nil⟩
  · rintro ⟨names, hnames, hcolumns⟩
    induction hnames generalizing cis with
    | close rest =>
        cases hcolumns
        exact .close rest
    | name hopen hname hsep hrest ih =>
        cases hcolumns with
        | cons hcolumn hcolumns => exact .column hopen hname hcolumn hsep (ih hcolumns)
    | last hopen hname hsep =>
        cases hcolumns with
        | cons hcolumn hnil =>
            cases hnil
            exact .last hopen hname hcolumn hsep

theorem NamesRead.append {names : List CString} {after : CString} (h : NamesRead p names after) :
    NamesRead (p ++ extra) names (after ++ extra) := by
  induction h with
  | close rest => exact .close _
  | @name p name after next rest names hopen hname hsep hrest ih =>
      have hafter : after ≠ [] := ne_nil_of_skipWs_ne_nil (by simp [hsep])
      have hp : p ≠ [] := ne_nil_of_parseIdentifier hname
      exact .name (by rwa [List.head?_append_of_ne_nil _ hp])
        (parseIdentifier_append hname hafter) (skipWs_append_cons hsep) ih
  | @last p name after rest hopen hname hsep =>
      have hafter : after ≠ [] := ne_nil_of_skipWs_ne_nil (by simp [hsep])
      have hp : p ≠ [] := ne_nil_of_parseIdentifier hname
      exact .last (by rwa [List.head?_append_of_ne_nil _ hp])
        (parseIdentifier_append hname hafter) (skipWs_append_cons hsep)

theorem ColumnsRead.append {table : Table} {cis : List (Fin maxColumns)} {after : CString}
    (h : ColumnsRead table p cis after) :
    ColumnsRead table (p ++ extra) cis (after ++ extra) := by
  obtain ⟨names, hnames, hcolumns⟩ := columnsRead_iff.mp h
  exact columnsRead_iff.mpr ⟨names, hnames.append, hcolumns⟩

theorem TupleRead.append {cells : List Cell} {after : CString} (h : TupleRead p cells after) :
    TupleRead (p ++ extra) cells (after ++ extra) := by
  induction h with
  | close rest => exact .close _
  | @value p next rest cells hne hopen hsep hrest ih =>
      have hvalue : (parseValue p).2 ≠ [] := ne_nil_of_skipWs_ne_nil (by simp [hsep])
      have hsame := @parseValue_append p extra hvalue
      have hread := @TupleRead.value (p ++ extra) (next ++ extra) (rest ++ extra) cells
        (by simp [hne]) (by rwa [List.head?_append_of_ne_nil _ hne])
        (by rw [hsame, skipWs_append_cons hsep]) ih
      rwa [hsame] at hread
  | @last p rest hne hopen hsep =>
      have hvalue : (parseValue p).2 ≠ [] := ne_nil_of_skipWs_ne_nil (by simp [hsep])
      have hsame := @parseValue_append p extra hvalue
      have hread := @TupleRead.last (p ++ extra) (rest ++ extra)
        (by simp [hne]) (by rwa [List.head?_append_of_ne_nil _ hne])
        (by rw [hsame, skipWs_append_cons hsep])
      rwa [hsame] at hread

/-- A list of names is read in one way. -/
theorem NamesRead.unique {names names' : List CString} {after after' : CString}
    (h : NamesRead p names after) (h' : NamesRead p names' after') :
    names = names' ∧ after = after' := by
  induction h generalizing names' after' with
  | close rest =>
      cases h' with
      | close => exact ⟨rfl, rfl⟩
      | name hopen => exact absurd rfl hopen
      | last hopen => exact absurd rfl hopen
  | @name p name after next rest names hopen hname hsep hrest ih =>
      cases h' with
      | close => exact absurd rfl hopen
      | name _ hname' hsep' hrest' =>
          obtain ⟨rfl, rfl⟩ := Prod.mk.inj (Option.some.inj (hname.symm.trans hname'))
          obtain ⟨-, rfl⟩ := List.cons.inj (hsep.symm.trans hsep')
          obtain ⟨rfl, rfl⟩ := ih hrest'
          exact ⟨rfl, rfl⟩
      | last _ hname' hsep' =>
          obtain ⟨rfl, rfl⟩ := Prod.mk.inj (Option.some.inj (hname.symm.trans hname'))
          exact absurd (List.cons.inj (hsep.symm.trans hsep')).1 (by decide)
  | @last p name after rest hopen hname hsep =>
      cases h' with
      | close => exact absurd rfl hopen
      | name _ hname' hsep' =>
          obtain ⟨rfl, rfl⟩ := Prod.mk.inj (Option.some.inj (hname.symm.trans hname'))
          exact absurd (List.cons.inj (hsep.symm.trans hsep')).1 (by decide)
      | last _ hname' hsep' =>
          obtain ⟨rfl, rfl⟩ := Prod.mk.inj (Option.some.inj (hname.symm.trans hname'))
          obtain ⟨-, rfl⟩ := List.cons.inj (hsep.symm.trans hsep')
          exact ⟨rfl, rfl⟩

/-- A column list is read in one way. -/
theorem ColumnsRead.unique {table : Table} {cis cis' : List (Fin maxColumns)}
    {after after' : CString} (h : ColumnsRead table p cis after)
    (h' : ColumnsRead table p cis' after') : cis = cis' ∧ after = after' := by
  obtain ⟨names, hnames, hcolumns⟩ := columnsRead_iff.mp h
  obtain ⟨names', hnames', hcolumns'⟩ := columnsRead_iff.mp h'
  obtain ⟨rfl, rfl⟩ := hnames.unique hnames'
  have hnamed : Relator.RightUnique fun name ci => findColumn table name = some ci :=
    fun _ _ _ hcolumn hcolumn' => Option.some.inj (hcolumn.symm.trans hcolumn')
  exact ⟨List.right_unique_forall₂' hnamed hcolumns hcolumns', rfl⟩

/-- `TuplePlaces p places after`: from behind the opening parenthesis at `p`, the
values of a tuple begin at `places`, and the tuple ends at `after`. -/
inductive TuplePlaces : CString → List CString → CString → Prop
  | close (rest : CString) : TuplePlaces (closeParen :: rest) [] rest
  | value {p next rest : CString} {places : List CString}
      (hne : p ≠ [])
      (hopen : p.head? ≠ some closeParen)
      (hsep : skipWs (parseValue p).2 = comma :: next)
      (hrest : TuplePlaces next places rest) :
      TuplePlaces p (p :: places) rest
  | last {p rest : CString}
      (hne : p ≠ [])
      (hopen : p.head? ≠ some closeParen)
      (hsep : skipWs (parseValue p).2 = closeParen :: rest) :
      TuplePlaces p [p] rest

/-- `TuplesPlaces p tuples`: the values of the tuples in the text `p` behind
`VALUES`, which is read to its end, begin at `tuples`. -/
inductive TuplesPlaces : CString → List (List CString) → Prop
  | done {p : CString} (hend : skipWs p = []) : TuplesPlaces p []
  | comma {p rest : CString} {tuples : List (List CString)}
      (hsep : skipWs p = comma :: rest) (hrest : TuplesPlaces rest tuples) :
      TuplesPlaces p tuples
  | tuple {p rest after : CString} {places : List CString} {tuples : List (List CString)}
      (hopen : skipWs p = openParen :: rest) (htuple : TuplePlaces rest places after)
      (hrest : TuplesPlaces after tuples) :
      TuplesPlaces p (places :: tuples)

/-- The cells of a tuple are those of the values at its places. -/
theorem tupleRead_iff {cells : List Cell} {after : CString} :
    TupleRead p cells after ↔
      ∃ places, TuplePlaces p places after ∧
        cells = places.map fun place => (parseValue place).1 := by
  constructor
  · intro h
    induction h with
    | close rest => exact ⟨[], .close rest, rfl⟩
    | @value p next rest cells hne hopen hsep hrest ih =>
        obtain ⟨places, hplaces, rfl⟩ := ih
        exact ⟨p :: places, .value hne hopen hsep hplaces, rfl⟩
    | @last p rest hne hopen hsep => exact ⟨[p], .last hne hopen hsep, rfl⟩
  · rintro ⟨places, hplaces, rfl⟩
    induction hplaces with
    | close rest => exact .close rest
    | value hne hopen hsep hrest ih => exact .value hne hopen hsep ih
    | last hne hopen hsep => exact .last hne hopen hsep

theorem tuplesRead_iff {tuples : List (List Cell)} :
    TuplesRead p tuples ↔
      ∃ placess, TuplesPlaces p placess ∧
        tuples = placess.map (List.map fun place => (parseValue place).1) := by
  constructor
  · intro h
    induction h with
    | done hend => exact ⟨[], .done hend, rfl⟩
    | comma hsep hrest ih =>
        obtain ⟨placess, hplaces, rfl⟩ := ih
        exact ⟨placess, .comma hsep hplaces, rfl⟩
    | tuple hopen htuple hrest ih =>
        obtain ⟨placess, hplaces, rfl⟩ := ih
        obtain ⟨places, hplace, rfl⟩ := tupleRead_iff.mp htuple
        exact ⟨places :: placess, .tuple hopen hplace hplaces, rfl⟩
  · rintro ⟨placess, hplaces, rfl⟩
    induction hplaces with
    | done hend => exact .done hend
    | comma hsep hrest ih => exact .comma hsep ih
    | tuple hopen htuple hrest ih => exact .tuple hopen (tupleRead_iff.mpr ⟨_, htuple, rfl⟩) ih

/-- The values of a tuple begin in one way. -/
theorem TuplePlaces.unique {places places' : List CString} {after after' : CString}
    (h : TuplePlaces p places after) (h' : TuplePlaces p places' after') :
    places = places' ∧ after = after' := by
  induction h generalizing places' after' with
  | close rest =>
      cases h' with
      | close => exact ⟨rfl, rfl⟩
      | value _ hopen => exact absurd rfl hopen
      | last _ hopen => exact absurd rfl hopen
  | @value p next rest places hne hopen hsep hrest ih =>
      cases h' with
      | close => exact absurd rfl hopen
      | value _ _ hsep' hrest' =>
          obtain ⟨-, rfl⟩ := List.cons.inj (hsep.symm.trans hsep')
          obtain ⟨rfl, rfl⟩ := ih hrest'
          exact ⟨rfl, rfl⟩
      | last _ _ hsep' => exact absurd (List.cons.inj (hsep.symm.trans hsep')).1 (by decide)
  | @last p rest hne hopen hsep =>
      cases h' with
      | close => exact absurd rfl hopen
      | value _ _ hsep' => exact absurd (List.cons.inj (hsep.symm.trans hsep')).1 (by decide)
      | last _ _ hsep' =>
          obtain ⟨-, rfl⟩ := List.cons.inj (hsep.symm.trans hsep')
          exact ⟨rfl, rfl⟩

theorem TuplesPlaces.unique {tuples tuples' : List (List CString)} (h : TuplesPlaces p tuples)
    (h' : TuplesPlaces p tuples') : tuples = tuples' := by
  induction h generalizing tuples' with
  | done hend =>
      cases h' with
      | done => rfl
      | comma hsep => rw [hend] at hsep; cases hsep
      | tuple hopen => rw [hend] at hopen; cases hopen
  | comma hsep hrest ih =>
      cases h' with
      | done hend => rw [hend] at hsep; cases hsep
      | comma hsep' hrest' =>
          obtain ⟨-, rfl⟩ := List.cons.inj (hsep.symm.trans hsep')
          exact ih hrest'
      | tuple hopen => exact absurd (List.cons.inj (hsep.symm.trans hopen)).1 (by decide)
  | tuple hopen htuple hrest ih =>
      cases h' with
      | done hend => rw [hend] at hopen; cases hopen
      | comma hsep => exact absurd (List.cons.inj (hopen.symm.trans hsep)).1 (by decide)
      | tuple hopen' htuple' hrest' =>
          obtain ⟨-, rfl⟩ := List.cons.inj (hopen.symm.trans hopen')
          obtain ⟨rfl, rfl⟩ := htuple.unique htuple'
          rw [ih hrest']

/-- A tuple is read in one way. -/
theorem TupleRead.unique {cells cells' : List Cell} {after after' : CString}
    (h : TupleRead p cells after) (h' : TupleRead p cells' after') :
    cells = cells' ∧ after = after' := by
  obtain ⟨places, hplaces, rfl⟩ := tupleRead_iff.mp h
  obtain ⟨places', hplaces', rfl⟩ := tupleRead_iff.mp h'
  obtain ⟨rfl, hafter⟩ := hplaces.unique hplaces'
  exact ⟨rfl, hafter⟩

/-- The tuples of a text are read in one way. -/
theorem TuplesRead.unique {tuples tuples' : List (List Cell)} (h : TuplesRead p tuples)
    (h' : TuplesRead p tuples') : tuples = tuples' := by
  obtain ⟨placess, hplaces, rfl⟩ := tuplesRead_iff.mp h
  obtain ⟨placess', hplaces', rfl⟩ := tuplesRead_iff.mp h'
  rw [hplaces.unique hplaces']

/-- The columns to fill are chosen in one way. -/
theorem ColumnsChosen.unique {table : Table} {columns columns' : List (Fin maxColumns)}
    {rest rest' : CString} (h : ColumnsChosen table p columns rest)
    (h' : ColumnsChosen table p columns' rest') : columns = columns' ∧ rest = rest' := by
  cases h with
  | listed hread =>
      cases h' with
      | listed hread' => exact hread.unique hread'
      | natural hopen => exact absurd rfl hopen
  | natural hopen =>
      cases h' with
      | listed => exact absurd rfl hopen
      | natural => exact ⟨rfl, rfl⟩

theorem ColumnsChosen.append {table : Table} {columns : List (Fin maxColumns)} {rest : CString}
    (h : ColumnsChosen table p columns rest) (hrest : rest ≠ []) :
    ColumnsChosen table (p ++ extra) columns (rest ++ extra) := by
  cases h with
  | listed hread => exact .listed hread.append
  | natural hopen => exact .natural (by rwa [List.head?_append_of_ne_nil _ hrest])

theorem ColumnsChosen.ne_nil {table : Table} {columns : List (Fin maxColumns)} {rest : CString}
    (h : ColumnsChosen table p columns rest) (hrest : rest ≠ []) : p ≠ [] := by
  cases h with
  | listed hread => simp
  | natural hopen => exact hrest

/-- A statement has one reading. -/
theorem Reading.Of.unique {tables : Tables} {stmt : CString} {r r' : Reading}
    (h : r.Of tables stmt) (h' : r'.Of tables stmt) : r = r' := by
  obtain ⟨target, columns, rest, values, tuples⟩ := r
  obtain ⟨target', columns', rest', values', tuples'⟩ := r'
  obtain rfl : target = target' := Outcome.ok.inj (h.target.symm.trans h'.target)
  obtain ⟨hcolumns, hrest⟩ := h.columns.unique h'.columns
  obtain rfl : columns = columns' := hcolumns
  obtain rfl : rest = rest' := hrest
  obtain rfl : values = values' := Option.some.inj (h.values.symm.trans h'.values)
  obtain rfl : tuples = tuples' := h.tuples.unique h'.tuples
  rfl

end SqlCodeGenerator
