import SqlCodeGenerator.InsertScanners
import SqlCodeGenerator.RowCapacity

/-!
# Writing INSERT statements

The documented form `INSERT INTO table [(cols...)] VALUES (...), (...)` as a data
type: everything a writer may choose is a field, and the text is computed from the
fields.  The types carry what makes a choice legal, so that every value of
`InsertText` is a statement of the documented form.

The second half reads each piece back with the scanner that reads it, whatever
stands behind it, and puts the pieces together in `parseInsertStatement_text`.
-/

namespace SqlCodeGenerator

open Library

/-! ## The pieces of a statement -/

/-- A run of white space. -/
structure Blanks where
  text : CString
  blank : ∀ c ∈ text, isSpace c = true

/-- A word of the language in some letter case. -/
structure Keyword (word : CString) where
  text : CString
  same : text.map toLower = word.map toLower

/-- An identifier: a name, bare or in a quote that does not occur in it. -/
structure Identifier where
  quote : Option CChar
  name : CString
  nonempty : name ≠ []
  short : name.length < maxName
  legal : match quote with
    | none => ∀ c ∈ name, isIdentifierChar c = true
    | some quote => isIdentifierQuote quote = true ∧ quote ∉ name

def Identifier.text (x : Identifier) : CString :=
  match x.quote with
  | none => x.name
  | some quote => quote :: (x.name ++ [quote])

/-- The characters of a bare literal. -/
def isTokenChar (c : CChar) : Bool :=
  !isSpace c && c ≠ comma && c ≠ openParen && c ≠ closeParen && c ≠ apostrophe

/-- A literal: any characters as a quoted string, or a bare token. -/
inductive Literal where
  | quoted (chars : CString)
  | bare (token : CString) (nonempty : token ≠ []) (plain : ∀ c ∈ token, isTokenChar c = true)

/-- The characters of a string with its apostrophes doubled. -/
def doubled : CString → CString
  | [] => []
  | c :: chars =>
      if c = apostrophe then apostrophe :: apostrophe :: doubled chars else c :: doubled chars

def Literal.text : Literal → CString
  | .quoted chars => apostrophe :: (doubled chars ++ [apostrophe])
  | .bare token _ _ => token

/-- Something written, with the white space around it. -/
structure Spaced (α : Type) where
  before : Blanks
  item : α
  after : Blanks

/-- Items separated by commas, and the text that closes them. -/
def separated {α : Type} (write : α → CString) (close : CString) : List (Spaced α) → CString
  | [] => close
  | [x] => x.before.text ++ (write x.item ++ (x.after.text ++ close))
  | x :: y :: rest =>
      x.before.text ++
        (write x.item ++ (x.after.text ++ comma :: separated write close (y :: rest)))

/-- Items in parentheses.  The white space belongs to the items, so nothing stands
between the parentheses where there is no item. -/
def parenthesised {α : Type} (write : α → CString) (items : List (Spaced α)) : CString :=
  openParen :: separated write [closeParen] items

/-- The values of a row as they are written. -/
abbrev Tuple := List (Spaced Literal)

def Tuple.text (tuple : Tuple) : CString := parenthesised Literal.text tuple

/-- A column list, and the white space behind it. -/
structure ColumnList where
  names : List (Spaced Identifier)
  after : Blanks

/-- A statement of the documented form. -/
structure InsertText where
  start : Blanks
  insertWord : Keyword (lit "insert")
  afterInsert : Blanks
  intoWord : Keyword (lit "into")
  afterInto : Blanks
  table : Identifier
  afterTable : Blanks
  columns : Option ColumnList
  valuesWord : Keyword (lit "values")
  tuples : List (Spaced Tuple)
  /-- A bare name is kept apart from `VALUES`.  The parser does not ask for white
  space around `INTO`. -/
  apart : table.quote = none → columns = none → afterTable.text ≠ []

namespace InsertText

/-- The text from `VALUES` on. -/
def valuesPart (s : InsertText) : CString :=
  s.valuesWord.text ++ separated Tuple.text [] s.tuples

/-- The text behind the column list, if there is one. -/
def behindColumns (s : InsertText) : CString :=
  match s.columns with
  | none => s.valuesPart
  | some list => list.after.text ++ s.valuesPart

/-- The text behind the table's name and the white space that follows it. -/
def behindTable (s : InsertText) : CString :=
  match s.columns with
  | none => s.valuesPart
  | some list => parenthesised Identifier.text list.names ++ s.behindColumns

/-- The text of the statement. -/
def text (s : InsertText) : CString :=
  s.start.text ++ (s.insertWord.text ++ (s.afterInsert.text ++ (s.intoWord.text ++
    (s.afterInto.text ++ (s.table.text ++ (s.afterTable.text ++ s.behindTable))))))

/-- The statement is about the table with index `tableIndex` and fills `columns`:
the names it uses are theirs, the columns are pairwise different, and every tuple
has a literal for each. -/
structure Describes (s : InsertText) (tables : Tables) (tableIndex : Fin maxTables)
    (table : Table) (columns : List (Fin maxColumns)) : Prop where
  tableName : findTable tables s.table.name = some tableIndex
  found : tables.items[tableIndex.val]? = some table
  columnNames : match s.columns with
    | none => columns = (naturalColumns table).items
    | some list =>
        List.Forall₂ (fun x ci => findColumn table x.item.name = some ci) list.names columns
  different : columns.Nodup
  literals : ∀ tuple ∈ s.tuples, tuple.item.length = columns.length

end InsertText

/-! ## White space and words -/

theorem skipWs_blanks (b : Blanks) (rest : CString) : skipWs (b.text ++ rest) = skipWs rest :=
  skipWs_append_of_blank (List.dropWhile_eq_nil_iff.mpr b.blank)

/-- A character that is not white space stands behind white space only where it
stands at all. -/
theorem head?_blanks_ne (b : Blanks) {p : CString} {c : CChar} (hc : isSpace c = false)
    (hp : p.head? ≠ some c) : (b.text ++ p).head? ≠ some c := by
  cases htext : b.text with
  | nil => simpa using hp
  | cons d rest =>
      have hd : isSpace d = true := b.blank d (by simp [htext])
      intro hhead
      obtain rfl : d = c := by simpa using hhead
      rw [hd] at hc
      cases hc

theorem ciStarts_of_map_eq {text word : CString} (h : text.map toLower = word.map toLower)
    (rest : CString) : ciStarts (text ++ rest) word = true := by
  induction word generalizing text with
  | nil => cases text ++ rest <;> rfl
  | cons d word ih =>
      cases text with
      | nil => simp at h
      | cons c text =>
          obtain ⟨hc, htail⟩ := List.cons.inj (by simpa using h :
            toLower c :: text.map toLower = toLower d :: word.map toLower)
          rw [List.cons_append, ciStarts, ih htail, hc]
          simp

theorem Keyword.ciStarts_append {word : CString} (k : Keyword word) (rest : CString) :
    ciStarts (k.text ++ rest) word = true :=
  ciStarts_of_map_eq k.same rest

theorem Keyword.drop_append {word : CString} (k : Keyword word) (rest : CString) :
    (k.text ++ rest).drop word.length = rest := by
  have hlen : k.text.length = word.length := by simpa using congrArg List.length k.same
  exact List.drop_left' hlen

/-! ## Identifiers -/

theorem isIdentifierChar_of_isSpace {c : CChar} (h : isSpace c = true) :
    isIdentifierChar c = false := by
  have hspace : c.val.toNat = 32 ∨ c.val.toNat ≤ 13 := by
    simp only [isSpace, Bool.or_eq_true, Bool.and_eq_true, beq_iff_eq, decide_eq_true_eq,
      UInt8.le_iff_toNat_le] at h
    rcases h with hblank | ⟨-, hcontrol⟩
    · exact Or.inl (by rw [hblank]; rfl)
    · exact Or.inr hcontrol
  have hunderscore : c ≠ chr '_' := by
    rintro rfl
    exact absurd hspace (by decide)
  have halnum : isAlnum c = false := by
    by_contra hchar
    have hranges : 48 ≤ c.val.toNat ∧ c.val.toNat ≤ 57 ∨ 65 ≤ c.val.toNat := by
      have hchar' : isAlnum c = true := by simpa using hchar
      simp only [isAlnum, Bool.or_eq_true, Bool.and_eq_true, decide_eq_true_eq,
        UInt8.le_iff_toNat_le] at hchar'
      rcases hchar' with (hdigit | hupper) | hlower
      · exact Or.inl hdigit
      · exact Or.inr hupper.1
      · exact Or.inr (Nat.le_trans (by decide) hlower.1)
    omega
  simp [isIdentifierChar, halnum, hunderscore]

/-- Behind white space, or a character that is none of its own, an identifier does
not go on. -/
theorem isIdentifierChar_head?_blanks (b : Blanks) {p : CString}
    (h : b.text ≠ [] ∨ ∀ c ∈ p.head?, isIdentifierChar c = false) :
    ∀ c ∈ (b.text ++ p).head?, isIdentifierChar c = false := by
  cases htext : b.text with
  | nil =>
      rcases h with hne | hp
      · exact absurd htext hne
      · simpa using hp
  | cons d rest =>
      intro c hc
      obtain rfl : d = c := by simpa using hc
      exact isIdentifierChar_of_isSpace (b.blank d (by simp [htext]))

/-- An identifier begins with a character that is neither white space nor a
closing parenthesis. -/
theorem Identifier.text_eq_cons (x : Identifier) :
    ∃ c rest, x.text = c :: rest ∧ isSpace c = false ∧ c ≠ closeParen := by
  obtain ⟨quote, name, hne, hshort, hlegal⟩ := x
  cases quote with
  | none =>
      cases name with
      | nil => exact absurd rfl hne
      | cons c name =>
          have hc : isIdentifierChar c = true := hlegal c List.mem_cons_self
          refine ⟨c, name, rfl, ?_, ?_⟩
          · by_contra hspace
            rw [isIdentifierChar_of_isSpace (by simpa using hspace)] at hc
            cases hc
          · rintro rfl
            exact absurd hc (by decide)
  | some quote =>
      have hquote : quote = doubleQuote ∨ quote = backtick := by
        simpa [isIdentifierQuote] using hlegal.1
      refine ⟨quote, name ++ [quote], rfl, ?_, ?_⟩
      · rcases hquote with rfl | rfl <;> decide
      · rcases hquote with rfl | rfl <;> decide

/-- An identifier is read back, provided that nothing behind a bare one would go
on with it. -/
theorem parseIdentifier_text (b : Blanks) (x : Identifier) {rest : CString}
    (hrest : x.quote = none → ∀ c ∈ rest.head?, isIdentifierChar c = false) :
    parseIdentifier (b.text ++ (x.text ++ rest)) maxName = some (x.name, rest) := by
  have hskip : skipWs (b.text ++ (x.text ++ rest)) = x.text ++ rest := by
    obtain ⟨c, tail, htext, hc, -⟩ := x.text_eq_cons
    rw [skipWs_blanks, htext, List.cons_append, skipWs_cons_of_not_isSpace hc]
  refine parseIdentifier_eq_some_iff.mpr ⟨x.nonempty, Nat.le_sub_one_of_lt x.short, ?_⟩
  rw [hskip]
  obtain ⟨quote, name, hne, hshort, hlegal⟩ := x
  cases quote with
  | none => exact Or.inr ⟨hlegal, rfl, fun c hc => Or.inl (hrest rfl c hc)⟩
  | some quote => exact Or.inl ⟨quote, hlegal.1, hlegal.2, by simp [Identifier.text]⟩

/-- A column list is read back as the names it was written from. -/
theorem namesRead_separated (names : List (Spaced Identifier)) (rest : CString) :
    NamesRead (separated Identifier.text [closeParen] names ++ rest)
      (names.map fun x => x.item.name) rest := by
  induction names with
  | nil => exact .close rest
  | cons x names ih =>
      have hopen : ∀ p : CString,
          (x.before.text ++ (x.item.text ++ p)).head? ≠ some closeParen := by
        intro p
        obtain ⟨c, tail, htext, -, hc⟩ := x.item.text_eq_cons
        exact head?_blanks_ne x.before (by decide) (by simpa [htext] using hc)
      have hstop : ∀ (d : CChar) (p : CString), isIdentifierChar d = false → x.item.quote = none →
          ∀ c ∈ (x.after.text ++ d :: p).head?, isIdentifierChar c = false :=
        fun d p hd _ => isIdentifierChar_head?_blanks _ (Or.inr (by simpa using hd))
      cases names with
      | nil =>
          simp only [separated, List.append_assoc, List.singleton_append, List.map]
          exact .last (hopen _) (parseIdentifier_text _ _ (hstop _ _ (by decide)))
            (by rw [skipWs_blanks, skipWs_cons_of_not_isSpace (by decide)])
      | cons y names =>
          simp only [separated, List.append_assoc, List.cons_append, List.map]
          exact .name (hopen _) (parseIdentifier_text _ _ (hstop _ _ (by decide)))
            (by rw [skipWs_blanks, skipWs_cons_of_not_isSpace (by decide)]) ih

/-! ## Values -/

theorem quotedText_doubled_append (chars : CString) {rest : CString}
    (hrest : rest.head? ≠ some apostrophe) :
    quotedText (doubled chars ++ apostrophe :: rest) = (chars, rest) := by
  induction chars with
  | nil => exact quotedText_close hrest
  | cons c chars ih =>
      by_cases hc : c = apostrophe
      · subst hc
        rw [doubled, if_pos rfl, List.cons_append, List.cons_append, quotedText_doubled, ih]
      · rw [doubled, if_neg hc, List.cons_append, quotedText_cons hc, ih]

/-- White space at the end of a text is trimmed. -/
theorem trimInplace_append_blanks (text : CString) {blanks : CString}
    (hblanks : ∀ c ∈ blanks, isSpace c = true) :
    trimInplace (text ++ blanks) = trimInplace text := by
  induction blanks using List.reverseRecOn with
  | nil => simp
  | append_singleton blanks c ih =>
      have hc : isSpace c = true := hblanks c (by simp)
      have hfront := ih fun d hd => hblanks d (by simp [hd])
      unfold trimInplace at hfront ⊢
      rw [← List.append_assoc, List.rdropWhile_concat_pos _ _ _ hc, hfront]

/-- White space behind a text does not change its cell. -/
theorem cellOfText_append_blanks (text : CString) (b : Blanks) :
    cellOfText (text ++ b.text) = cellOfText text := by
  have hcut : ∀ c ∈ b.text.take (maxValue - 1 - text.length), isSpace c = true :=
    fun c hc => b.blank c (List.mem_of_mem_take hc)
  unfold cellOfText
  rw [List.take_append, trimInplace_append_blanks _ hcut]

theorem isBareValueChar_of_isSpace {c : CChar} (h : isSpace c = true) :
    isBareValueChar c = true := by
  have hcomma : c ≠ comma := by
    rintro rfl
    exact absurd h (by decide)
  have hclose : c ≠ closeParen := by
    rintro rfl
    exact absurd h (by decide)
  simp [isBareValueChar, hcomma, hclose]

/-- What a bare token is made of: no white space, nothing that ends a value, and
no apostrophe. -/
theorem isTokenChar_spec {c : CChar} (h : isTokenChar c = true) :
    isSpace c = false ∧ isBareValueChar c = true ∧ c ≠ apostrophe := by
  simp only [isTokenChar, Bool.and_eq_true, Bool.not_eq_true', decide_eq_true_eq] at h
  obtain ⟨⟨⟨⟨hspace, hcomma⟩, -⟩, hclose⟩, happ⟩ := h
  exact ⟨hspace, by simp [isBareValueChar, hcomma, hclose], happ⟩

theorem valueText_token {token : CString} (hne : token ≠ [])
    (hplain : ∀ c ∈ token, isTokenChar c = true) {rest : CString}
    (hrest : ∀ c ∈ rest.head?, isBareValueChar c = false) (b : Blanks) :
    valueText (skipWs (token ++ (b.text ++ rest))) = (token ++ b.text, rest) := by
  cases token with
  | nil => exact absurd rfl hne
  | cons c token =>
      obtain ⟨hspace, -, happ⟩ := isTokenChar_spec (hplain c List.mem_cons_self)
      have hall : ∀ d ∈ (c :: token) ++ b.text, isBareValueChar d = true := by
        intro d hd
        rcases List.mem_append.mp hd with htoken | hblank
        · exact (isTokenChar_spec (hplain d htoken)).2.1
        · exact isBareValueChar_of_isSpace (b.blank d hblank)
      have hstop : rest.takeWhile isBareValueChar = [] ∧ rest.dropWhile isBareValueChar = rest := by
        cases rest with
        | nil => exact ⟨rfl, rfl⟩
        | cons d rest =>
            have hd : isBareValueChar d = false := hrest d rfl
            simp [hd]
      rw [List.cons_append, skipWs_cons_of_not_isSpace hspace, valueText, if_neg happ,
        ← List.cons_append, ← List.append_assoc, List.takeWhile_append_of_pos hall,
        List.dropWhile_append_of_pos hall, hstop.1, hstop.2, List.append_nil]

/-- A literal in a tuple is read as it is read alone, up to what ends it. -/
theorem parseValue_text (x : Spaced Literal) {d : CChar} {rest : CString}
    (hd : d = comma ∨ d = closeParen) :
    (parseValue (x.before.text ++ (x.item.text ++ (x.after.text ++ d :: rest)))).1 =
        (parseValue x.item.text).1 ∧
      skipWs (parseValue (x.before.text ++ (x.item.text ++ (x.after.text ++ d :: rest)))).2 =
        d :: rest := by
  have hspace : isSpace d = false := by rcases hd with rfl | rfl <;> decide
  have hvalue : isBareValueChar d = false := by rcases hd with rfl | rfl <;> decide
  have happ : d ≠ apostrophe := by rcases hd with rfl | rfl <;> decide
  unfold parseValue
  rw [skipWs_blanks]
  cases x.item with
  | quoted chars =>
      have hclose : ∀ p : CString, p.head? ≠ some apostrophe →
          valueText (skipWs ((Literal.quoted chars).text ++ p)) = (chars, p) := by
        intro p hp
        have hquoted := quotedText_doubled_append chars hp
        rw [Literal.text, List.cons_append, skipWs_cons_of_not_isSpace (by decide), valueText,
          if_pos rfl, List.append_assoc, List.singleton_append, hquoted]
      have hbehind : (x.after.text ++ d :: rest).head? ≠ some apostrophe :=
        head?_blanks_ne x.after (by decide) (by simpa using happ)
      have halone := hclose [] (by simp)
      rw [List.append_nil] at halone
      rw [hclose _ hbehind, halone]
      exact ⟨rfl, by rw [skipWs_blanks, skipWs_cons_of_not_isSpace hspace]⟩
  -- the blanks behind a bare token are part of what is scanned, and are trimmed off
  | bare token hne hplain =>
      have hwhole := @valueText_token token hne hplain (d :: rest) (by simpa using hvalue) x.after
      have halone := @valueText_token token hne hplain [] (by simp) ⟨[], by simp⟩
      simp only [List.append_nil] at halone
      simp only [Literal.text]
      rw [hwhole, halone]
      exact ⟨cellOfText_append_blanks token x.after, skipWs_cons_of_not_isSpace hspace⟩

/-- The cells of a tuple: each literal as `parse_value` reads it alone. -/
def Tuple.cells (tuple : Tuple) : List Cell := tuple.map fun x => (parseValue x.item.text).1

/-- A literal begins with a character that does not close a tuple. -/
theorem Literal.text_head? (x : Literal) :
    x.text ≠ [] ∧ x.text.head? ≠ some closeParen := by
  cases x with
  | quoted chars => exact ⟨by simp [text], by simp [text, (by decide : apostrophe ≠ closeParen)]⟩
  | bare token hne hplain =>
      refine ⟨hne, ?_⟩
      cases token with
      | nil => exact absurd rfl hne
      | cons c token =>
          have hc := (isTokenChar_spec (hplain c List.mem_cons_self)).2.1
          intro hhead
          obtain rfl : c = closeParen := by simpa [text] using hhead
          exact absurd hc (by decide)

/-- A tuple is read back, one cell for each literal. -/
theorem tupleRead_separated (tuple : Tuple) (rest : CString) :
    TupleRead (separated Literal.text [closeParen] tuple ++ rest) tuple.cells rest := by
  induction tuple with
  | nil => exact .close rest
  | cons x tuple ih =>
      obtain ⟨hne, hhead⟩ := x.item.text_head?
      have hopen : ∀ p : CString, (x.before.text ++ (x.item.text ++ p)).head? ≠ some closeParen :=
        fun p => head?_blanks_ne x.before (by decide) (by rwa [List.head?_append_of_ne_nil _ hne])
      have hsome : ∀ p : CString, x.before.text ++ (x.item.text ++ p) ≠ [] := by
        simp [hne]
      cases tuple with
      | nil =>
          obtain ⟨hcell, hsep⟩ := @parseValue_text x closeParen rest (Or.inr rfl)
          have hread := TupleRead.last (hsome _) (hopen _) hsep
          rw [hcell] at hread
          simpa [separated, Tuple.cells] using hread
      | cons y tuple =>
          obtain ⟨hcell, hsep⟩ := @parseValue_text x comma
            (separated Literal.text [closeParen] (y :: tuple) ++ rest) (Or.inl rfl)
          have hread := TupleRead.value (hsome _) (hopen _) hsep ih
          rw [hcell] at hread
          simpa [separated, Tuple.cells] using hread

/-- The tuples are read back in their order, to the end of the text. -/
theorem tuplesRead_separated (tuples : List (Spaced Tuple)) :
    TuplesRead (separated Tuple.text [] tuples) (tuples.map fun x => x.item.cells) := by
  induction tuples with
  | nil => exact .done rfl
  | cons x tuples ih =>
      have hopen : ∀ p : CString, skipWs (x.before.text ++ (x.item.text ++ p)) =
          openParen :: (separated Literal.text [closeParen] x.item ++ p) := by
        intro p
        rw [skipWs_blanks, Tuple.text, parenthesised, List.cons_append,
          skipWs_cons_of_not_isSpace (by decide)]
      cases tuples with
      | nil =>
          have hend : skipWs (x.after.text ++ []) = [] := skipWs_blanks x.after []
          exact .tuple (hopen _) (tupleRead_separated x.item _) (.done hend)
      | cons y tuples =>
          have hsep : skipWs (x.after.text ++ comma :: separated Tuple.text [] (y :: tuples)) =
              comma :: separated Tuple.text [] (y :: tuples) := by
            rw [skipWs_blanks, skipWs_cons_of_not_isSpace (by decide)]
          exact .tuple (hopen _) (tupleRead_separated x.item _) (.comma hsep ih)

/-! ## The statement -/

namespace InsertText

variable {s : InsertText} {tables : Tables} {tableIndex : Fin maxTables} {table : Table}
  {columns : List (Fin maxColumns)}

theorem skipWs_valuesPart (s : InsertText) : skipWs s.valuesPart = s.valuesPart :=
  skipWs_of_ciStarts (by decide) (s.valuesWord.ciStarts_append _)

theorem skipWs_behindColumns (s : InsertText) : skipWs s.behindColumns = s.valuesPart := by
  unfold behindColumns
  cases s.columns with
  | none => exact s.skipWs_valuesPart
  | some list => simp only [skipWs_blanks, skipWs_valuesPart]

theorem skipWs_behindTable (s : InsertText) : skipWs s.behindTable = s.behindTable := by
  unfold behindTable
  cases s.columns with
  | none => exact s.skipWs_valuesPart
  | some list => exact skipWs_cons_of_not_isSpace (by decide)

/-- What the parser finds in the statement. -/
def reading (s : InsertText) (tableIndex : Fin maxTables) (table : Table)
    (columns : List (Fin maxColumns)) : Reading :=
  ⟨⟨s.table.name, tableIndex, table, s.behindTable⟩, columns, s.behindColumns, s.valuesPart,
    s.tuples.map fun x => x.item.cells⟩

/-- The beginning of the statement is read back as its table. -/
theorem insertTarget_text (h : s.Describes tables tableIndex table columns) :
    insertTarget tables (skipWs s.text) =
      .ok ⟨s.table.name, tableIndex, table, s.behindTable⟩ := by
  have hinsert : skipWs s.text = s.insertWord.text ++ (s.afterInsert.text ++ (s.intoWord.text ++
      (s.afterInto.text ++ (s.table.text ++ (s.afterTable.text ++ s.behindTable))))) := by
    rw [text, skipWs_blanks]
    exact skipWs_of_ciStarts (by decide) (s.insertWord.ciStarts_append _)
  have hinto : skipWs ((skipWs s.text).drop 6) = s.intoWord.text ++
      (s.afterInto.text ++ (s.table.text ++ (s.afterTable.text ++ s.behindTable))) := by
    have hdrop := s.insertWord.drop_append (s.afterInsert.text ++ (s.intoWord.text ++
      (s.afterInto.text ++ (s.table.text ++ (s.afterTable.text ++ s.behindTable)))))
    rw [hinsert, (by decide : 6 = (lit "insert").length), hdrop, skipWs_blanks]
    exact skipWs_of_ciStarts (by decide) (s.intoWord.ciStarts_append _)
  have hname : (skipWs ((skipWs s.text).drop 6)).drop 4 =
      s.afterInto.text ++ (s.table.text ++ (s.afterTable.text ++ s.behindTable)) := by
    rw [hinto, (by decide : 4 = (lit "into").length)]
    exact s.intoWord.drop_append _
  -- behind a bare name stands white space or the parenthesis of a column list
  have hstop : s.table.quote = none →
      ∀ c ∈ (s.afterTable.text ++ s.behindTable).head?, isIdentifierChar c = false := by
    intro hbare
    refine isIdentifierChar_head?_blanks _ ?_
    cases hcolumns : s.columns with
    | none => exact Or.inl (s.apart hbare hcolumns)
    | some list =>
        have hopen : isIdentifierChar openParen = false := by decide
        exact Or.inr (by simpa [behindTable, hcolumns, parenthesised] using hopen)
  refine insertTarget_eq_ok_iff.mpr
    ⟨?_, ?_, s.afterTable.text ++ s.behindTable, ?_, h.tableName, h.found, ?_⟩
  · rw [hinsert]
    exact s.insertWord.ciStarts_append _
  · rw [hinto]
    exact s.intoWord.ciStarts_append _
  · rw [hname]
    exact parseIdentifier_text _ _ hstop
  · rw [skipWs_blanks, skipWs_behindTable]

/-- The columns are read back, listed or in their natural order. -/
theorem columnsChosen_text (h : s.Describes tables tableIndex table columns) :
    ColumnsChosen table s.behindTable columns s.behindColumns := by
  have hnames := h.columnNames
  cases hcolumns : s.columns with
  | none =>
      rw [hcolumns] at hnames
      have hopen : s.valuesPart.head? ≠ some openParen :=
        head?_of_ciStarts_values (s.valuesWord.ciStarts_append _)
      simp only [behindTable, behindColumns, hcolumns, hnames]
      exact .natural hopen
  | some list =>
      rw [hcolumns] at hnames
      have hread := namesRead_separated list.names s.behindColumns
      have hfound := columnsRead_iff.mpr ⟨_, hread, List.forall₂_map_left_iff.mpr hnames⟩
      simp only [behindTable, hcolumns]
      exact .listed hfound

/-- The statement has the reading it was written from. -/
theorem reading_of (h : s.Describes tables tableIndex table columns) :
    (s.reading tableIndex table columns).Of tables s.text where
  target := insertTarget_text h
  columns := columnsChosen_text h
  room := by
    have hcard : columns.length ≤ Fintype.card (Fin maxColumns) := h.different.length_le_card
    simpa [reading] using hcard
  values := by
    have hskip := s.skipWs_behindColumns
    have hstarts : ciStarts (skipWs s.behindColumns) (lit "values") = true := by
      rw [hskip]
      exact s.valuesWord.ciStarts_append _
    have hfind := ciFind_skipWs (by decide) hstarts
    rwa [hskip] at hfind
  tuples := by
    have hdrop : s.valuesPart.drop 6 = separated Tuple.text [] s.tuples :=
      s.valuesWord.drop_append _
    show TuplesRead (s.valuesPart.drop 6) _
    rw [hdrop]
    exact tuplesRead_separated s.tuples
  counts := by
    intro cells hcells
    obtain ⟨x, hx, rfl⟩ := List.mem_map.mp hcells
    simpa [Tuple.cells, reading] using h.literals x hx

end InsertText

/-- The row of a tuple: it belongs to the table, each literal stands in its column
as `parse_value` reads it alone, and the other columns are NULL. -/
structure RowOf (tableIndex : Fin maxTables) (table : Table) (columns : List (Fin maxColumns))
    (tuple : Tuple) (ir : InsertRow) : Prop where
  tableIndex : ir.tableIndex = tableIndex
  listed : ∀ (k : Nat) (ci : Fin maxColumns) (x : Spaced Literal), columns[k]? = some ci →
    tuple[k]? = some x → ir.row.cell ci = (parseValue x.item.text).1
  unlisted : ∀ ci : Fin maxColumns, ci ∉ columns → ci.val < table.columns.count →
    ir.row.cell ci = ⟨snprintf [], true⟩

theorem rowOf_tupleRow {tableIndex : Fin maxTables} {table : Table}
    {columns : List (Fin maxColumns)} (hdifferent : columns.Nodup) (tuple : Tuple) :
    RowOf tableIndex table columns tuple (tupleRow tableIndex table columns tuple.cells) where
  tableIndex := rfl
  listed := fun k ci x hci hx =>
    cell_storeAll hdifferent hci (by simp [Tuple.cells, hx])
  unlisted := by
    intro ci hci hcolumn
    have hblank : (blankRow table).cell ci = ⟨snprintf [], true⟩ := by
      simp [blankRow, Row.cell, hcolumn]
    exact (cell_storeAll_of_notMem hci).trans hblank

/-- Parsing undoes writing: a statement of the documented form is accepted and
appends one row for each of its tuples, in their order. -/
theorem parseInsertStatement_text {s : InsertText} {tables : Tables}
    {tableIndex : Fin maxTables} {table : Table} {columns : List (Fin maxColumns)}
    (h : s.Describes tables tableIndex table columns) (batch : InsertBatch)
    (hroom : batch.count + s.tuples.length ≤ maxBatchRows) :
    ∃ batch', parseInsertStatement tables s.text batch = .ok batch' ∧
      ∃ rows, batch'.items = batch.items ++ rows ∧
        List.Forall₂ (fun tuple ir => RowOf tableIndex table columns tuple.item ir)
          s.tuples rows := by
  have hcount : (s.reading tableIndex table columns).rows.length = s.tuples.length := by
    simp [Reading.rows, InsertText.reading]
  refine ⟨batch.append (s.reading tableIndex table columns).rows (by rwa [hcount]), ?_,
    (s.reading tableIndex table columns).rows, rfl, ?_⟩
  · exact parseInsertStatement_eq_ok_iff.mpr (Or.inr ⟨_, InsertText.reading_of h, rfl⟩)
  · simp only [Reading.rows, InsertText.reading, List.map_map]
    refine List.forall₂_map_right_iff.mpr (List.forall₂_same.mpr fun tuple _ => ?_)
    exact rowOf_tupleRow h.different tuple.item

/-! ## A statement, and what the form leaves out -/

def oneBlank : Blanks := ⟨lit " ", by decide +kernel⟩
def noBlanks : Blanks := ⟨[], by simp⟩

/-- A statement for the plain table, with a comma, parentheses, an apostrophe and
the word `values` in its first literal. -/
def plainInsert : InsertText where
  start := noBlanks
  insertWord := ⟨lit "Insert", by decide⟩
  afterInsert := oneBlank
  intoWord := ⟨lit "INTO", by decide⟩
  afterInto := oneBlank
  table := ⟨none, lit "t", by decide, by decide, by decide +kernel⟩
  afterTable := noBlanks
  columns := some ⟨[⟨oneBlank, ⟨some doubleQuote, lit "a", by decide, by decide, by decide⟩,
    noBlanks⟩], noBlanks⟩
  valuesWord := ⟨lit "Values", by decide⟩
  tuples := [⟨noBlanks, [⟨noBlanks, .quoted (lit "it's, (values)"), oneBlank⟩], noBlanks⟩,
    ⟨oneBlank, [⟨oneBlank, .bare (lit "NULL") (by decide) (by decide +kernel), oneBlank⟩],
      oneBlank⟩]
  apart := by simp

/-- The text of that statement, and its two rows. -/
theorem parseInsertStatement_plainInsert :
    plainInsert.text = lit "Insert INTO t( \"a\")Values('it''s, (values)' ), ( NULL ) " ∧
      ∃ batch', parseInsertStatement plainTables plainInsert.text .empty = .ok batch' ∧
        ∃ rows, batch'.items = rows ∧
          List.Forall₂ (fun tuple ir => RowOf 0 ⟨snprintf (lit "t"), ⟨[plainColumn], by decide⟩,
            .empty⟩ [0] tuple.item ir) plainInsert.tuples rows := by
  have hdescribes : plainInsert.Describes plainTables 0
      ⟨snprintf (lit "t"), ⟨[plainColumn], by decide⟩, .empty⟩ [0] := {
    tableName := by decide +kernel
    found := by decide +kernel
    columnNames := .cons (by decide +kernel) .nil
    different := by decide
    literals := by decide }
  obtain ⟨batch', hparse, rows, hitems, hrows⟩ :=
    parseInsertStatement_text hdescribes .empty (by decide)
  exact ⟨by decide, batch', hparse, rows, by simpa using hitems, hrows⟩

/-- The text of a table with two columns of one name. -/
def twinTableText : List UInt8 :=
  (lit "\x7b\"name\":\"t\",\"columns\":[\x7b\"name\":\"a\"\x7d,\x7b\"name\":\"a\"\x7d]\x7d").map
    Subtype.val

/-- The text of a document with two such tables, which have one name as well. -/
def twinText : List UInt8 :=
  (lit "\x7b\"tables\":[").map Subtype.val ++ twinTableText ++ (lit ",").map Subtype.val ++
    twinTableText ++ (lit "]\x7d").map Subtype.val

def twinTableJson : CJson :=
  .object [(lit "name", .string (lit "t")), (lit "columns", .array [
    .object [(lit "name", .string (lit "a"))], .object [(lit "name", .string (lit "a"))]])]

def twinDocument : CJson :=
  .object [(lit "tables", .array [twinTableJson, twinTableJson])]

def twinLoad : Op :=
  .load (fun json => if json = twinText then some twinDocument else none) (.holding twinText)

/-- One of the twins. -/
def twinTable : Table := ⟨snprintf (lit "t"), ⟨[plainColumn, plainColumn], by decide⟩, .empty⟩

/-- The tables after the load. -/
def twinTables : Tables := ⟨[twinTable, twinTable], by decide⟩

/-- The row of the first twin with one value, in its first column. -/
def twinRow (value : CString) : InsertRow :=
  ⟨0, (blankRow twinTable).store 0 ⟨snprintf value, false⟩⟩

/-- A name stands for the first table and the first column of that name: a row for
the second table named `t` goes to the first, and the second column named `a` gets
no value.  For a table without columns, a tuple with a blank in its parentheses is
refused. -/
theorem twinTables_misread :
    Op.step (stateInit 0) twinLoad = some { stateInit 0 with tables := twinTables } ∧
      twinTables.items[1]? = some twinTable ∧
      parseInsertStatement twinTables (lit "INSERT INTO t (a) VALUES (1)") .empty =
        .ok ⟨[twinRow (lit "1")], by decide⟩ ∧
      parseInsertStatement twinTables (lit "INSERT INTO t (a, a) VALUES (1, 2)") .empty =
        .ok ⟨[twinRow (lit "2")], by decide⟩ ∧
      parseInsertStatement ⟨[⟨snprintf (lit "e"), .empty, .empty⟩], by decide⟩
          (lit "INSERT INTO e VALUES ( )") .empty =
        .error (lit "too many values") := by
  decide +kernel

end SqlCodeGenerator
