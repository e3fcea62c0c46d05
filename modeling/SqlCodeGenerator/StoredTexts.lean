import SqlCodeGenerator.NullLiterals

/-!
# What a stored text says about its literal

A quoted literal is cut to the first 127 bytes of its content and trimmed before it
is stored, and `value_exists` compares what is stored.

* `DifferInBlanks`: two texts that are the same up to white space at their ends.
* `QuotedCell`: a quoted literal of an accepted statement that is stored as a text.
* `storedText_iff`: the stored texts tell two literals apart exactly where the
  literals are the same or differ, in their first 127 bytes, in more than that.
-/

namespace SqlCodeGenerator

open Library

/-! ## White space around a text -/

/-- Two texts that have the same text between white space. -/
def DifferInBlanks (x y : CString) : Prop :=
  ∃ (core : CString) (front back front' back' : Blanks),
    x = front.text ++ core ++ back.text ∧ y = front'.text ++ core ++ back'.text

/-- White space at the beginning of a text is trimmed. -/
theorem trimInplace_blanks_append (front : Blanks) (text : CString) :
    trimInplace (front.text ++ text) = trimInplace text := by
  have hfront : skipWs front.text = [] := List.dropWhile_eq_nil_iff.mpr front.blank
  show skipWs ((front.text ++ text).rdropWhile isSpace) = skipWs (text.rdropWhile isSpace)
  by_cases htext : text.rdropWhile isSpace = []
  · -- nothing but white space
    have hall : ∀ c ∈ front.text ++ text, isSpace c = true := by
      intro c hc
      rcases List.mem_append.mp hc with hc | hc
      · exact front.blank c hc
      · exact List.rdropWhile_eq_nil_iff.mp htext c hc
    rw [List.rdropWhile_eq_nil_iff.mpr hall, htext]
  · have hends : (text.reverse.dropWhile isSpace).isEmpty = false := by
      simpa [List.rdropWhile] using htext
    have hwhole : (front.text ++ text).rdropWhile isSpace =
        front.text ++ text.rdropWhile isSpace := by
      unfold List.rdropWhile
      rw [List.reverse_append, List.dropWhile_append, hends]
      simp
    rw [hwhole, skipWs_append_of_blank hfront]

/-- A text is what is left of it after trimming, with white space around it. -/
theorem exists_blanks_around (text : CString) :
    ∃ front back : Blanks, text = front.text ++ trimInplace text ++ back.text := by
  refine ⟨⟨(text.rdropWhile isSpace).takeWhile isSpace, fun c hc => List.mem_takeWhile_imp hc⟩,
    ⟨text.rtakeWhile isSpace, fun c hc => List.mem_rtakeWhile_imp hc⟩, ?_⟩
  show text = (text.rdropWhile isSpace).takeWhile isSpace ++
    (text.rdropWhile isSpace).dropWhile isSpace ++ text.rtakeWhile isSpace
  rw [List.takeWhile_append_dropWhile, List.rdropWhile_append_rtakeWhile]

/-- Trimming forgets exactly the white space at the ends. -/
theorem trimInplace_eq_iff {x y : CString} :
    trimInplace x = trimInplace y ↔ DifferInBlanks x y := by
  constructor
  · intro h
    obtain ⟨front, back, hx⟩ := exists_blanks_around x
    obtain ⟨front', back', hy⟩ := exists_blanks_around y
    exact ⟨trimInplace x, front, back, front', back', hx, by rw [h]; exact hy⟩
  · rintro ⟨core, front, back, front', back', rfl, rfl⟩
    rw [trimInplace_append_blanks _ back.blank, trimInplace_append_blanks _ back'.blank,
      trimInplace_blanks_append, trimInplace_blanks_append]

/-- The text of a cell that is not NULL. -/
theorem chars_cellOfText {text : CString} (h : (cellOfText text).isNull = false) :
    (cellOfText text).value.chars = trimInplace (text.take (maxValue - 1)) := by
  have hnull : trimInplace (text.take (maxValue - 1)) ≠ lit "NULL" := by
    intro hnull
    rw [isNull_cellOfText text |>.mpr hnull] at h
    cases h
  have hfits : (trimInplace (text.take (maxValue - 1))).length ≤ maxValue - 1 :=
    (length_trimInplace_le _).trans (List.length_take_le _ _)
  unfold cellOfText
  dsimp only
  rw [if_neg hnull]
  exact List.take_of_length_le hfits

/-! ## Stored literals -/

/-- A quoted literal of an accepted statement, the last one that its tuple writes for
its column, that is not stored as NULL. -/
structure QuotedCell where
  tables : Tables
  stmt : CString
  before : InsertBatch
  after : InsertBatch
  accepted : parseInsertStatement tables stmt before = .ok after
  reading : Reading
  readingOf : reading.Of tables stmt
  tuples : List (List Written)
  written : TuplesWritten (reading.values.drop 6) tuples
  literals : List Written
  literals_mem : literals ∈ tuples
  column : Fin maxColumns
  /-- The string between the apostrophes, with the doubled ones un-doubled. -/
  content : CString
  last : lastFor reading.columns literals column = some (.quoted content)
  not_null : ((reading.writtenRow literals).row.cell column).isNull = false

namespace QuotedCell

/-- The row that the literal stands in. -/
def row (x : QuotedCell) : InsertRow := x.reading.writtenRow x.literals

/-- The text that is stored for it. -/
def stored (x : QuotedCell) : CString := (x.row.row.cell x.column).value.chars

/-- The row is one of those that the statement adds to the batch. -/
theorem row_mem (x : QuotedCell) : x.row ∈ x.after.items := by
  rcases parseInsertStatement_eq_ok_iff.mp x.accepted with ⟨hblank, -⟩ | ⟨r, hr, hitems⟩
  · exact absurd (hblank ▸ x.readingOf.target) (insertTarget_nil x.tables x.reading.target)
  · obtain rfl := hr.unique x.readingOf
    obtain ⟨tuples, htuples, hcells⟩ := tuplesRead_iff_written.mp x.readingOf.tuples
    obtain rfl := htuples.unique x.written
    rw [hitems, List.mem_append, Reading.rows, hcells, List.map_map]
    exact Or.inr (List.mem_map.mpr ⟨x.literals, x.literals_mem, rfl⟩)

/-- The first 127 bytes of the string, trimmed, are what is stored. -/
theorem stored_eq (x : QuotedCell) : x.stored = trimInplace (x.content.take (maxValue - 1)) := by
  have hcolumn : x.column.val < x.reading.target.table.columns.count :=
    x.readingOf.columns.lt_count (List.of_mem_zip (mem_zip_of_lastFor x.last)).1
  have hcell : x.row.row.cell x.column = cellOfText x.content := by
    rcases x.reading.cell_writtenRow x.literals hcolumn with ⟨hnone, -⟩ | ⟨w, hw, hcell⟩
    · rw [x.last] at hnone
      cases hnone
    · rw [x.last] at hw
      obtain rfl := Option.some.inj hw
      exact hcell
  have hnull : (cellOfText x.content).isNull = false := hcell ▸ x.not_null
  unfold stored
  rw [hcell]
  exact chars_cellOfText hnull

end QuotedCell

/-- The rows that `value_exists` looks through. -/
def rowsSeen (tables : Tables) (earlier : List InsertRow) (i : Fin maxTables) : List Row :=
  storedRows tables i ++ (earlier.filter fun ir => ir.tableIndex = i).map InsertRow.row

theorem valueExists_iff_rowsSeen {tables : Tables} {earlier : List InsertRow} {i : Fin maxTables}
    {c : Fin maxColumns} {value : CString} :
    valueExists tables earlier i c value = true ↔
      ∃ row ∈ rowsSeen tables earlier i, (row.cell c).holds value = true := by
  unfold valueExists rowsSeen
  simp only [Bool.or_eq_true, List.any_eq_true, Bool.and_eq_true, decide_eq_true_eq,
    List.mem_append, List.mem_map, List.mem_filter]
  constructor
  · rintro (⟨row, hrow, hholds⟩ | ⟨ir, hir, htable, hholds⟩)
    · exact ⟨row, Or.inl hrow, hholds⟩
    · exact ⟨ir.row, Or.inr ⟨ir, ⟨hir, htable⟩, rfl⟩, hholds⟩
  · rintro ⟨_, hrow | ⟨ir, ⟨hir, htable⟩, rfl⟩, hholds⟩
    · exact Or.inl ⟨_, hrow, hholds⟩
    · exact Or.inr ⟨ir, hir, htable, hholds⟩

namespace QuotedCell

/-- The stored texts tell the two literals apart, and so do the lookups that a
duplicate or a foreign-key match is reported by. -/
structure Identifies (x y : QuotedCell) : Prop where
  /-- The stored texts are equal exactly where the strings are. -/
  stored : x.stored = y.stored ↔ x.content = y.content
  /-- Where the row of the first literal is the only reason to find the second one in
  its column, the strings are equal. -/
  reported : ∀ tables earlier,
    valueExists tables earlier x.row.tableIndex x.column y.stored = true →
    (∀ row ∈ rowsSeen tables earlier x.row.tableIndex,
      (row.cell x.column).holds y.stored = true → row = x.row.row) →
    x.content = y.content

/-- For every two quoted literals of accepted statements, in the same column or not: they
are identified by what is stored of them exactly where they are the same string or
their first 127 bytes differ in more than the white space at the ends. -/
theorem identifies_iff (x y : QuotedCell) :
    x.Identifies y ↔
      x.content = y.content ∨
        ¬ DifferInBlanks (x.content.take (maxValue - 1)) (y.content.take (maxValue - 1)) := by
  have hstored : x.stored = y.stored ↔
      DifferInBlanks (x.content.take (maxValue - 1)) (y.content.take (maxValue - 1)) := by
    rw [x.stored_eq, y.stored_eq, trimInplace_eq_iff]
  constructor
  · intro h
    by_cases hblanks :
        DifferInBlanks (x.content.take (maxValue - 1)) (y.content.take (maxValue - 1))
    · exact Or.inl (h.stored.mp (hstored.mpr hblanks))
    · exact Or.inr hblanks
  · intro h
    have hsame : x.stored = y.stored → x.content = y.content :=
      fun heq => h.resolve_right fun hdiffer => hdiffer (hstored.mp heq)
    have hequal : x.content = y.content → x.stored = y.stored := by
      intro heq
      rw [x.stored_eq, y.stored_eq, heq]
    refine ⟨⟨hsame, hequal⟩, fun tables earlier hexists honly => ?_⟩
    obtain ⟨row, hrow, hholds⟩ := valueExists_iff_rowsSeen.mp hexists
    -- the row that is found can only be the one of the first literal
    obtain rfl := honly row hrow hholds
    have htext : x.stored = y.stored := by
      simp only [Cell.holds, Bool.and_eq_true, decide_eq_true_eq] at hholds
      exact hholds.2
    exact hsame htext

/-- Strings that fit and have no white space at their ends are told apart. -/
theorem identifies_of_trimmed {x y : QuotedCell}
    (hx : x.content.length < maxValue ∧ trimInplace x.content = x.content)
    (hy : y.content.length < maxValue ∧ trimInplace y.content = y.content) :
    x.Identifies y := by
  rw [identifies_iff, ← trimInplace_eq_iff,
    List.take_of_length_le (Nat.le_sub_one_of_lt hx.1),
    List.take_of_length_le (Nat.le_sub_one_of_lt hy.1), hx.2, hy.2]
  exact em _

end QuotedCell

/-! ## A blank in a UNIQUE column -/

/-- A table `t` with the one column `a`, which is UNIQUE. -/
def uniqueTable : Table :=
  ⟨snprintf (lit "t"), ⟨[{ freeColumn (lit "a") with unique := true }], by decide⟩, .empty⟩

def uniqueTables : Tables := ⟨[uniqueTable], by decide⟩

/-- Two tuples of one value each. -/
theorem tuplesWritten_two {p first second : CString} (rest rest' : CString)
    (hopen : skipWs p = openParen :: first) (hfirst : first ≠ [] ∧ first.head? ≠ some closeParen)
    (hclose : skipWs (parseValue first).2 = closeParen :: rest)
    (hnext : skipWs rest = comma :: rest') (hopen' : skipWs rest' = openParen :: second)
    (hsecond : second ≠ [] ∧ second.head? ≠ some closeParen)
    (hclose' : skipWs (parseValue second).2 = [closeParen]) :
    TuplesWritten p [[writtenAt first], [writtenAt second]] :=
  ⟨[[first], [second]],
    .tuple hopen (.last hfirst.1 hfirst.2 hclose) (.comma hnext
      (.tuple hopen' (.last hsecond.1 hsecond.2 hclose') (.done rfl))), rfl⟩

/-- The row that both tuples of `('a'), ('a ')` are stored as. -/
def storedA : InsertRow := ⟨0, (blankRow uniqueTable).store 0 ⟨snprintf (lit "a"), false⟩⟩

/-- The reading of `INSERT INTO t VALUES ('a'), ('a ')`. -/
def blankReading : Reading :=
  ⟨⟨lit "t", 0, uniqueTable, lit "VALUES ('a'), ('a ')"⟩, [0], lit "VALUES ('a'), ('a ')",
    lit "VALUES ('a'), ('a ')",
    [[Written.quoted (lit "a")], [Written.quoted (lit "a ")]].map (List.map Written.cell)⟩

theorem blankReading_written : TuplesWritten (blankReading.values.drop 6)
    [[.quoted (lit "a")], [.quoted (lit "a ")]] := by
  have hfirst : writtenAt (lit "'a'), ('a ')") = .quoted (lit "a") := by decide +kernel
  have hsecond : writtenAt (lit "'a ')") = .quoted (lit "a ") := by decide +kernel
  rw [← hfirst, ← hsecond]
  exact tuplesWritten_two (lit ", ('a ')") (lit " ('a ')") (by decide +kernel) (by decide)
    (by decide +kernel) (by decide +kernel) (by decide +kernel) (by decide)
    (by decide +kernel)

theorem blankReading_of :
    blankReading.Of uniqueTables (lit "INSERT INTO t VALUES ('a'), ('a ')") where
  target := rfl
  columns := .natural (by decide)
  room := by decide
  values := rfl
  tuples := tuplesRead_iff_written.mpr ⟨_, blankReading_written, rfl⟩
  counts := by decide

theorem blankReading_accepted :
    parseInsertStatement uniqueTables (lit "INSERT INTO t VALUES ('a'), ('a ')") .empty =
      .ok ⟨[storedA, storedA], by decide⟩ := by
  decide +kernel

/-- The literal of the first tuple. -/
def literalA : QuotedCell :=
  ⟨_, _, _, _, blankReading_accepted, _, blankReading_of, _, blankReading_written,
    [.quoted (lit "a")], by decide, 0, lit "a", rfl, by decide +kernel⟩

/-- The literal of the second tuple. -/
def literalABlank : QuotedCell :=
  ⟨_, _, _, _, blankReading_accepted, _, blankReading_of, _, blankReading_written,
    [.quoted (lit "a ")], by decide, 0, lit "a ", rfl, by decide +kernel⟩

/-- The strings `a` and `a` with a blank behind it are stored alike, and the second tuple
is refused as a duplicate of the first. -/
theorem trailingBlank_duplicate :
    literalA.stmt = lit "INSERT INTO t VALUES ('a'), ('a ')" ∧
      literalABlank.stmt = literalA.stmt ∧ literalA.column = literalABlank.column ∧
      literalA.content = lit "a" ∧ literalABlank.content = lit "a " ∧
      literalA.stored = literalABlank.stored ∧ ¬ literalA.Identifies literalABlank ∧
      validateBatchRows uniqueTables literalA.after =
        .error (lit "constraint failed: duplicate value for t.a") := by
  have hstored : literalA.stored = literalABlank.stored := by
    rw [literalA.stored_eq, literalABlank.stored_eq]
    show trimInplace ((lit "a").take (maxValue - 1)) = trimInplace ((lit "a ").take (maxValue - 1))
    decide +kernel
  have hdifferent : lit "a" ≠ lit "a " := by decide
  exact ⟨rfl, rfl, rfl, rfl, rfl, hstored, fun h => hdifferent (h.stored.mp hstored), by
    decide +kernel⟩

end SqlCodeGenerator
