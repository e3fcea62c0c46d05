import SqlCodeGenerator.InsertParser

/-!
# Derivations of a successful parse

What the loops of the INSERT parser do when they succeed, as derivations: a
column list is read as a list of columns, a tuple as a list of cells, and the
text behind `VALUES` as a list of tuples.  Each loop succeeds exactly along a
derivation, and the derivation does not mention the accumulators (`column_map`,
the row being filled, the batch).  Every later fact about parsing is an
induction on a derivation.
-/

namespace SqlCodeGenerator

open Library

/-! ## The column list -/

/-- `ColumnsRead table p cis after`: from behind the opening parenthesis at `p`,
the columns `cis` are listed, and the list ends at `after`. -/
inductive ColumnsRead (table : Table) : CString → List (Fin maxColumns) → CString → Prop
  | close (rest : CString) : ColumnsRead table (closeParen :: rest) [] rest
  | column {p name after next rest : CString} {ci : Fin maxColumns}
      {cis : List (Fin maxColumns)}
      (hopen : p.head? ≠ some closeParen)
      (hname : parseIdentifier p maxName = some (name, after))
      (hcolumn : findColumn table name = some ci)
      (hsep : skipWs after = comma :: next)
      (hrest : ColumnsRead table next cis rest) :
      ColumnsRead table p (ci :: cis) rest
  | last {p name after rest : CString} {ci : Fin maxColumns}
      (hopen : p.head? ≠ some closeParen)
      (hname : parseIdentifier p maxName = some (name, after))
      (hcolumn : findColumn table name = some ci)
      (hsep : skipWs after = closeParen :: rest) :
      ColumnsRead table p [ci] rest

/-- One round of the loop over a column list, whatever it finds. -/
theorem columnList_cons {table : Table} {tableName rest : CString} {map : ColumnMap} {c : CChar}
    (hc : c ≠ closeParen) :
    columnList table tableName map (c :: rest) =
      match parseIdentifier (c :: rest) maxName with
      | none => .error (lit "expected column name")
      | some (colName, after) =>
          match findColumn table colName with
          | none => .error (unknownColumn tableName colName)
          | some ci =>
              match map.push? ci with
              | none => .fault
              | some map =>
                  match skipWs after with
                  | [] => .error (lit "expected comma or ')' in column list")
                  | d :: next =>
                      if d = comma then columnList table tableName map next
                      else if d = closeParen then .ok (map, next)
                      else .error (lit "expected comma or ')' in column list") := by
  rw [columnList, if_neg hc]
  split
  · next hname => rw [hname]
  · next colName after hname =>
      rw [hname]
      dsimp only
      cases findColumn table colName with
      | none => rfl
      | some ci =>
          dsimp only
          cases map.push? ci with
          | none => rfl
          | some map =>
              dsimp only
              split
              · next hsep => rw [hsep]
              · next d next hsep => rw [hsep]

theorem columnList_close {table : Table} {tableName rest : CString} {map : ColumnMap} :
    columnList table tableName map (closeParen :: rest) = .ok (map, rest) := by
  rw [columnList, if_pos rfl]

/-- One round of the loop over a column list in which everything is found. -/
theorem columnList_round {table : Table} {tableName p name after next : CString}
    {map map₁ : ColumnMap} {ci : Fin maxColumns} {d : CChar}
    (hopen : p.head? ≠ some closeParen)
    (hname : parseIdentifier p maxName = some (name, after))
    (hcolumn : findColumn table name = some ci) (hpush : map.push? ci = some map₁)
    (hsep : skipWs after = d :: next) :
    columnList table tableName map p =
      if d = comma then columnList table tableName map₁ next
      else if d = closeParen then .ok (map₁, next)
      else .error (lit "expected comma or ')' in column list") := by
  cases p with
  | nil => simp [parseIdentifier, skipWs] at hname
  | cons c rest =>
      have hc : c ≠ closeParen := by simpa using hopen
      rw [columnList, if_neg hc]
      split
      · next hnone =>
          rw [hname] at hnone
          cases hnone
      · next name' after' hsome =>
          rw [hname, Option.some.injEq, Prod.mk.injEq] at hsome
          obtain ⟨rfl, rfl⟩ := hsome
          simp only [hcolumn, hpush]
          split
          · next hnil =>
              rw [hsep] at hnil
              cases hnil
          · next d' next' hcons =>
              rw [hsep, List.cons.injEq] at hcons
              obtain ⟨rfl, rfl⟩ := hcons
              rfl

/-- Room for one more item, from room for it and what follows it. -/
theorem exists_push?_of_append {α : Type} {capacity : Nat} {a b : CountedArray α capacity}
    {item : α} {items : List α} (h : b.items = a.items ++ item :: items) :
    ∃ a', a.push? item = some a' ∧ b.items = a'.items ++ items := by
  have hroom : a.count < capacity := by
    have hfits := b.fits
    rw [h, List.length_append, List.length_cons] at hfits
    unfold CountedArray.count
    omega
  obtain ⟨a', hpush⟩ := Option.isSome_iff_exists.mp
    (CountedArray.isSome_push?_iff.mpr hroom : (a.push? item).isSome)
  exact ⟨a', hpush, by rw [h, (CountedArray.push?_eq_some_iff.mp hpush).2]; simp⟩

/-- The loop over the column list succeeds exactly along a derivation for which
`column_map` has room. -/
theorem columnList_eq_ok_iff {table : Table} {tableName p after : CString}
    {map map' : ColumnMap} :
    columnList table tableName map p = .ok (map', after) ↔
      ∃ cis, ColumnsRead table p cis after ∧ map'.items = map.items ++ cis := by
  constructor
  · -- one case for each way out of the loop; only three of them are a success
    intro h
    fun_induction columnList table tableName map p with
    | case1 map => cases h
    | case2 map rest =>
        obtain ⟨rfl, rfl⟩ := Prod.mk.inj (Outcome.ok.inj h)
        exact ⟨[], .close _, by simp⟩
    | case3 => cases h
    | case4 => cases h
    | case5 => cases h
    | case6 => cases h
    | case7 map c rest hc name next hname ci hcolumn map₁ hpush tail hsep ih =>
        obtain ⟨cis, hread, hitems⟩ := ih h
        have hmap := (CountedArray.push?_eq_some_iff.mp hpush).2
        exact ⟨ci :: cis, .column (by simpa using hc) hname hcolumn hsep hread, by
          simp [hitems, hmap]⟩
    | case8 map c rest hc name next hname ci hcolumn map₁ hpush tail hsep hne =>
        obtain ⟨rfl, rfl⟩ := Prod.mk.inj (Outcome.ok.inj h)
        have hmap := (CountedArray.push?_eq_some_iff.mp hpush).2
        exact ⟨[ci], .last (by simpa using hc) hname hcolumn hsep, hmap⟩
    | case9 => cases h
  · rintro ⟨cis, hread, hitems⟩
    induction hread generalizing map with
    | close rest =>
        have hmap : map' = map := CountedArray.ext (by simpa using hitems)
        rw [columnList, if_pos rfl, hmap]
    | @column p name after next rest ci cis hopen hname hcolumn hsep hrest ih =>
        obtain ⟨map₁, hpush, hitems₁⟩ := exists_push?_of_append hitems
        rw [columnList_round hopen hname hcolumn hpush hsep, if_pos rfl]
        exact ih hitems₁
    | @last p name after rest ci hopen hname hcolumn hsep =>
        obtain ⟨map₁, hpush, hitems₁⟩ := exists_push?_of_append hitems
        have hmap : map' = map₁ := CountedArray.ext (by simpa using hitems₁)
        rw [columnList_round hopen hname hcolumn hpush hsep, if_neg (by decide), if_pos rfl,
          hmap]

/-! ## A tuple -/

/-- `TupleRead p cells after`: from behind the opening parenthesis at `p`, the
values of a tuple are read as `cells`, and the tuple ends at `after`. -/
inductive TupleRead : CString → List Cell → CString → Prop
  | close (rest : CString) : TupleRead (closeParen :: rest) [] rest
  | value {p next rest : CString} {cells : List Cell}
      (hne : p ≠ [])
      (hopen : p.head? ≠ some closeParen)
      (hsep : skipWs (parseValue p).2 = comma :: next)
      (hrest : TupleRead next cells rest) :
      TupleRead p ((parseValue p).1 :: cells) rest
  | last {p rest : CString}
      (hne : p ≠ [])
      (hopen : p.head? ≠ some closeParen)
      (hsep : skipWs (parseValue p).2 = closeParen :: rest) :
      TupleRead p [(parseValue p).1] rest

/-- The row after the values of a tuple have been stored, each in its column, in
order. -/
def storeAll (row : Row) : List (Fin maxColumns) → List Cell → Row
  | ci :: columns, x :: cells => storeAll (row.store ci x) columns cells
  | _, _ => row

/-- A column that gets no value keeps its cell. -/
theorem cell_storeAll_of_notMem {row : Row} {columns : List (Fin maxColumns)}
    {cells : List Cell} {d : Fin maxColumns} (hd : d ∉ columns) :
    (storeAll row columns cells).cell d = row.cell d := by
  induction columns generalizing row cells with
  | nil => rfl
  | cons ci columns ih =>
      obtain ⟨hci, hcolumns⟩ := not_or.mp (mt List.mem_cons.mpr hd)
      cases cells with
      | nil => rfl
      | cons x cells => rw [storeAll, ih hcolumns, Row.cell_store_of_ne _ _ hci]

/-- In pairwise different columns every value stays where it was stored. -/
theorem cell_storeAll {row : Row} {columns : List (Fin maxColumns)} {cells : List Cell}
    (hnodup : columns.Nodup) {k : Nat} {ci : Fin maxColumns} {x : Cell}
    (hci : columns[k]? = some ci) (hx : cells[k]? = some x) :
    (storeAll row columns cells).cell ci = x := by
  induction columns generalizing row cells k with
  | nil => simp at hci
  | cons first columns ih =>
      obtain ⟨hfirst, hrest⟩ := List.nodup_cons.mp hnodup
      cases cells with
      | nil => simp at hx
      | cons y cells =>
          rw [storeAll]
          cases k with
          | zero =>
              obtain rfl : first = ci := by simpa using hci
              obtain rfl : y = x := by simpa using hx
              rw [cell_storeAll_of_notMem hfirst, Row.cell_store_self]
          | succ k => exact ih hrest (by simpa using hci) (by simpa using hx)

theorem tupleValues_close (row : Row) (rest : CString) :
    tupleValues [] row (closeParen :: rest) = .ok (row, rest) := by
  rw [tupleValues, if_pos rfl]

/-- One round of the loop over a tuple, at a value. -/
theorem tupleValues_round {columns : List (Fin maxColumns)} {row : Row} {p next : CString}
    {ci : Fin maxColumns} {d : CChar} (hne : p ≠ []) (hopen : p.head? ≠ some closeParen)
    (hsep : skipWs (parseValue p).2 = d :: next) :
    tupleValues (ci :: columns) row p =
      if d = comma then tupleValues columns (row.store ci (parseValue p).1) next
      else if d = closeParen then
        tupleValues columns (row.store ci (parseValue p).1) (d :: next)
      else .error (lit "expected comma or ')' in values tuple") := by
  cases p with
  | nil => exact absurd rfl hne
  | cons c rest =>
      have hc : c ≠ closeParen := by simpa using hopen
      rw [tupleValues, if_neg hc]
      simp only [hsep]

/-- The loop over a tuple succeeds exactly along a derivation with one cell for
each column. -/
theorem tupleValues_eq_ok_iff {columns : List (Fin maxColumns)} {row row' : Row}
    {p after : CString} :
    tupleValues columns row p = .ok (row', after) ↔
      ∃ cells, TupleRead p cells after ∧ cells.length = columns.length ∧
        row' = storeAll row columns cells := by
  constructor
  · intro h
    fun_induction tupleValues columns row p with
    | case1 => cases h
    | case2 row rest =>
        obtain ⟨rfl, rfl⟩ := Prod.mk.inj (Outcome.ok.inj h)
        exact ⟨[], .close _, rfl, rfl⟩
    | case3 => cases h
    | case4 => cases h
    | case5 => cases h
    | case6 row c rest ci columns hc row₁ next hsep ih =>
        obtain ⟨cells, hread, hlen, rfl⟩ := ih h
        exact ⟨_, .value (List.cons_ne_nil _ _) (by simpa using hc) hsep hread, by simp [hlen],
          rfl⟩
    | case7 row c rest ci columns hc row₁ next hsep hne ih =>
        obtain ⟨cells, hread, hlen, rfl⟩ := ih h
        -- at a closing parenthesis nothing more is read
        cases hread with
        | close =>
            exact ⟨_, .last (List.cons_ne_nil _ _) (by simpa using hc) hsep, by simp [← hlen],
              by cases columns <;> rfl⟩
        | value _ hopen => exact absurd rfl hopen
        | last _ hopen => exact absurd rfl hopen
    | case8 => cases h
  · rintro ⟨cells, hread, hlen, rfl⟩
    induction hread generalizing columns row with
    | close rest =>
        obtain rfl : columns = [] := List.length_eq_zero_iff.mp hlen.symm
        exact tupleValues_close row rest
    | @value p next rest cells hne hopen hsep hrest ih =>
        cases columns with
        | nil => simp at hlen
        | cons ci columns =>
            rw [tupleValues_round hne hopen hsep, if_pos rfl, ih (by simpa using hlen), storeAll]
    | @last p rest hne hopen hsep =>
        cases columns with
        | nil => simp at hlen
        | cons ci columns =>
            obtain rfl : columns = [] := by simpa using hlen.symm
            rw [tupleValues_round hne hopen hsep, if_neg (by decide), if_pos rfl,
              tupleValues_close]
            rfl

/-! ## The tuples of a statement -/

/-- `TuplesRead p tuples`: the text `p` behind `VALUES` is read, to its end, as
the tuples `tuples`. -/
inductive TuplesRead : CString → List (List Cell) → Prop
  | done {p : CString} (hend : skipWs p = []) : TuplesRead p []
  | comma {p rest : CString} {tuples : List (List Cell)}
      (hsep : skipWs p = comma :: rest) (hrest : TuplesRead rest tuples) :
      TuplesRead p tuples
  | tuple {p rest after : CString} {cells : List Cell} {tuples : List (List Cell)}
      (hopen : skipWs p = openParen :: rest) (htuple : TupleRead rest cells after)
      (hrest : TuplesRead after tuples) :
      TuplesRead p (cells :: tuples)

/-- The row appended for a tuple. -/
def tupleRow (tableIndex : Fin maxTables) (table : Table) (columns : List (Fin maxColumns))
    (cells : List Cell) : InsertRow :=
  ⟨tableIndex, storeAll (blankRow table) columns cells⟩

/-- One round of the loop over the tuples. -/
theorem valuesTuples_round {tableIndex : Fin maxTables} {table : Table} {map : ColumnMap}
    {p : CString} {batch : InsertBatch} :
    valuesTuples tableIndex table map p batch =
      match skipWs p with
      | [] => .ok batch
      | c :: rest =>
          if c = comma then
            valuesTuples tableIndex table map rest batch
          else if c ≠ openParen then
            .error (lit "expected '(' before values tuple")
          else if batch.count ≥ maxBatchRows then
            .error (lit "too many rows in insert batch")
          else
            match tupleValues map.items (blankRow table) rest with
            | .error message => .error message
            | .fault => .fault
            | .ok (row, after) =>
                match batch.push? ⟨tableIndex, row⟩ with
                | none => .fault
                | some batch =>
                    valuesTuples tableIndex table map after batch := by
  rw [valuesTuples]
  split
  · next hskip => rw [hskip]
  · next c rest hskip =>
      rw [hskip]
      dsimp only
      split
      · rfl
      · split
        · rfl
        · split
          · rfl
          · split
            · next htuple => simp only [htuple]
            · next htuple => simp only [htuple]
            · next row after htuple =>
                cases hpush : batch.push? ⟨tableIndex, row⟩ with
                | none => simp only [htuple, hpush]
                | some batch' => simp only [htuple, hpush]

section Rounds

variable {tableIndex : Fin maxTables} {table : Table} {map : ColumnMap} {p rest : CString}
  {batch : InsertBatch}

/-! The three ways a round of the loop over the tuples succeeds. -/

theorem valuesTuples_done (hend : skipWs p = []) :
    valuesTuples tableIndex table map p batch = .ok batch := by
  rw [valuesTuples]
  split
  · rfl
  · next hp =>
      rw [hend] at hp
      cases hp

theorem valuesTuples_comma (hsep : skipWs p = comma :: rest) :
    valuesTuples tableIndex table map p batch =
      valuesTuples tableIndex table map rest batch := by
  rw [valuesTuples]
  split
  · next hp =>
      rw [hsep] at hp
      cases hp
  · next c rest' hp =>
      rw [hsep, List.cons.injEq] at hp
      obtain ⟨rfl, rfl⟩ := hp
      rw [if_pos rfl]

theorem valuesTuples_tuple {row : Row} {after : CString} {batch₁ : InsertBatch}
    (hopen : skipWs p = openParen :: rest)
    (htuple : tupleValues map.items (blankRow table) rest = .ok (row, after))
    (hpush : batch.push? ⟨tableIndex, row⟩ = some batch₁) :
    valuesTuples tableIndex table map p batch =
      valuesTuples tableIndex table map after batch₁ := by
  have hroom : ¬ batch.count ≥ maxBatchRows :=
    Nat.not_le.mpr (CountedArray.push?_eq_some_iff.mp hpush).1
  rw [valuesTuples]
  split
  · next hp =>
      rw [hopen] at hp
      cases hp
  · next c rest' hp =>
      rw [hopen, List.cons.injEq] at hp
      obtain ⟨rfl, rfl⟩ := hp
      rw [if_neg (by decide), if_neg (by simp), if_neg hroom]
      split
      · next hbad => rw [htuple] at hbad; cases hbad
      · next hbad => rw [htuple] at hbad; cases hbad
      · next row' after' hok =>
          rw [htuple, Outcome.ok.injEq, Prod.mk.injEq] at hok
          obtain ⟨rfl, rfl⟩ := hok
          simp only [hpush]

end Rounds

/-- The loop over the tuples succeeds exactly along a derivation whose tuples
have one value for each column and fit in the batch. -/
theorem valuesTuples_eq_ok_iff {tableIndex : Fin maxTables} {table : Table}
    {map : ColumnMap} {p : CString} {batch batch' : InsertBatch} :
    valuesTuples tableIndex table map p batch = .ok batch' ↔
      ∃ tuples, TuplesRead p tuples ∧ (∀ cells ∈ tuples, cells.length = map.count) ∧
        batch'.items = batch.items ++ tuples.map (tupleRow tableIndex table map.items) := by
  constructor
  · intro h
    fun_induction valuesTuples tableIndex table map p batch with
    | case1 p batch hend =>
        obtain rfl := Outcome.ok.inj h
        exact ⟨[], .done hend, by simp, by simp⟩
    | case2 p batch rest hsep ih =>
        obtain ⟨tuples, hread, hlen, hitems⟩ := ih h
        exact ⟨tuples, .comma hsep hread, hlen, hitems⟩
    | case3 => cases h
    | case4 => cases h
    | case5 => cases h
    | case6 => cases h
    | case7 => cases h
    | case8 p batch c rest hp hcomma hopen hroom row after htuple batch₁ hpush ih =>
        obtain ⟨tuples, hread, hlen, hitems⟩ := ih h
        obtain ⟨cells, hcells, hcount, rfl⟩ := tupleValues_eq_ok_iff.mp htuple
        obtain rfl : c = openParen := by simpa using hopen
        refine ⟨cells :: tuples, .tuple hp hcells hread, ?_, ?_⟩
        · simpa [hcount, CountedArray.count] using hlen
        · simp [hitems, (CountedArray.push?_eq_some_iff.mp hpush).2, tupleRow]
  · rintro ⟨tuples, hread, hlen, hitems⟩
    induction hread generalizing batch with
    | done hend =>
        have hbatch : batch' = batch := CountedArray.ext (by simpa using hitems)
        rw [valuesTuples_done hend, hbatch]
    | comma hsep hrest ih =>
        rw [valuesTuples_comma hsep]
        exact ih hlen hitems
    | @tuple p rest after cells tuples hopen htuple hrest ih =>
        -- the batch has room for the row, as it has for all rows still to come
        obtain ⟨batch₁, hpush, hitems₁⟩ := exists_push?_of_append hitems
        have hcount : cells.length = map.items.length := hlen cells List.mem_cons_self
        have hrow := tupleValues_eq_ok_iff.mpr
          ⟨cells, htuple, hcount, (rfl : storeAll (blankRow table) map.items cells = _)⟩
        rw [valuesTuples_tuple hopen hrow hpush]
        exact ih (fun cells' h => hlen cells' (List.mem_cons_of_mem _ h)) hitems₁

/-! ## A statement -/

/-- `ColumnsChosen table p columns rest`: at the position `p` behind the table's
name the columns to fill are `columns`, listed or by default, and parsing goes on
at `rest`. -/
inductive ColumnsChosen (table : Table) : CString → List (Fin maxColumns) → CString → Prop
  | listed {p rest : CString} {columns : List (Fin maxColumns)}
      (hread : ColumnsRead table p columns rest) :
      ColumnsChosen table (openParen :: p) columns rest
  | natural {p : CString} (hopen : p.head? ≠ some openParen) :
      ColumnsChosen table p (naturalColumns table).items p

theorem columnMap_eq_ok_iff {table : Table} {tableName p rest : CString} {map : ColumnMap} :
    columnMap table tableName p = .ok (map, rest) ↔ ColumnsChosen table p map.items rest := by
  unfold columnMap
  cases p with
  | nil =>
      constructor
      · intro h
        obtain ⟨rfl, rfl⟩ := Prod.mk.inj (Outcome.ok.inj h)
        exact .natural (by simp)
      · generalize hitems : map.items = columns
        rintro (_ | hopen)
        rw [show map = naturalColumns table from CountedArray.ext hitems]
  | cons c p =>
      by_cases hc : c = openParen
      · subst hc
        simp only [if_pos, columnList_eq_ok_iff]
        constructor
        · rintro ⟨columns, hread, hitems⟩
          rw [hitems]
          exact .listed hread
        · generalize hitems : map.items = columns
          rintro (hread | hopen)
          · exact ⟨columns, hread, by simp⟩
          · exact absurd rfl hopen
      · simp only [if_neg hc]
        constructor
        · intro h
          obtain ⟨rfl, rfl⟩ := Prod.mk.inj (Outcome.ok.inj h)
          exact .natural (by simpa using hc)
        · generalize hitems : map.items = columns
          rintro (hread | hopen)
          · exact absurd rfl hc
          · rw [show map = naturalColumns table from CountedArray.ext hitems]

/-- What the parser finds in a statement: the table, the columns to fill, the
position behind them, the position of `VALUES`, and the tuples. -/
structure Reading where
  target : InsertTarget
  columns : List (Fin maxColumns)
  rest : CString
  values : CString
  tuples : List (List Cell)

/-- The rows that a reading contributes. -/
def Reading.rows (r : Reading) : List InsertRow :=
  r.tuples.map (tupleRow r.target.tableIndex r.target.table r.columns)

/-- The reading is that of the statement. -/
structure Reading.Of (tables : Tables) (stmt : CString) (r : Reading) : Prop where
  target : insertTarget tables (skipWs stmt) = .ok r.target
  columns : ColumnsChosen r.target.table r.target.after r.columns r.rest
  room : r.columns.length ≤ maxColumns
  values : ciFind r.rest (lit "values") = some r.values
  tuples : TuplesRead (r.values.drop 6) r.tuples
  counts : ∀ cells ∈ r.tuples, cells.length = r.columns.length

/-- The beginning of a statement is accepted when the two words stand there and
the name behind them is that of a table. -/
theorem insertTarget_eq_ok_iff {tables : Tables} {p : CString} {target : InsertTarget} :
    insertTarget tables p = .ok target ↔
      ciStarts p (lit "insert") = true ∧
      ciStarts (skipWs (p.drop 6)) (lit "into") = true ∧
      ∃ after, parseIdentifier ((skipWs (p.drop 6)).drop 4) maxName =
          some (target.tableName, after) ∧
        findTable tables target.tableName = some target.tableIndex ∧
        tables.items[target.tableIndex.val]? = some target.table ∧
        target.after = skipWs after := by
  unfold insertTarget
  simp only [Outcome.check_bind_eq_ok_iff, Outcome.failWhen_eq_ok_iff, not_not]
  refine and_congr_right fun _ => and_congr_right fun _ => ?_
  -- the three lookups behind the two words, one after the other
  cases hname : parseIdentifier ((skipWs (p.drop 6)).drop 4) maxName with
  | none => simp
  | some found =>
      obtain ⟨tableName, after⟩ := found
      simp only [Option.some.injEq, Prod.mk.injEq]
      cases hindex : findTable tables tableName with
      | none =>
          refine iff_of_false (by simp) ?_
          rintro ⟨_, ⟨rfl, rfl⟩, hfound, -⟩
          rw [hindex] at hfound
          cases hfound
      | some tableIndex =>
          cases htable : tables.items[tableIndex.val]? with
          | none =>
              refine iff_of_false (by simp [htable]) ?_
              rintro ⟨_, ⟨rfl, rfl⟩, hfound, htable', -⟩
              rw [hindex, Option.some.injEq] at hfound
              rw [← hfound, htable] at htable'
              cases htable'
          | some table =>
              simp only [htable, Outcome.ok.injEq]
              constructor
              · rintro rfl
                exact ⟨after, ⟨rfl, rfl⟩, hindex, htable, rfl⟩
              · rintro ⟨_, ⟨hsame, rfl⟩, hfound, htable', hafter⟩
                obtain ⟨name', index', table', after'⟩ := target
                obtain rfl : tableName = name' := hsame
                obtain rfl : tableIndex = index' := by
                  rw [hindex, Option.some.injEq] at hfound
                  exact hfound
                obtain rfl : table = table' := by
                  simpa [htable] using htable'
                obtain rfl : after' = skipWs after := hafter
                rfl

/-- Nothing is inserted into no table. -/
theorem insertTarget_nil (tables : Tables) (target : InsertTarget) :
    insertTarget tables [] ≠ .ok target := by
  intro h
  exact absurd (insertTarget_eq_ok_iff.mp h).1 (by decide)

/-- A statement is accepted when it is blank, and otherwise exactly when it has a
reading, whose rows then stand behind those of the batch. -/
theorem parseInsertStatement_eq_ok_iff {tables : Tables} {stmt : CString}
    {batch batch' : InsertBatch} :
    parseInsertStatement tables stmt batch = .ok batch' ↔
      (skipWs stmt = [] ∧ batch' = batch) ∨
        ∃ r : Reading, r.Of tables stmt ∧ batch'.items = batch.items ++ r.rows := by
  unfold parseInsertStatement
  by_cases hblank : skipWs stmt = []
  · simp only [if_pos hblank, Outcome.ok.injEq]
    constructor
    · rintro rfl
      exact Or.inl ⟨hblank, rfl⟩
    · rintro (⟨-, rfl⟩ | ⟨r, hr, -⟩)
      · rfl
      · exact absurd (hblank ▸ hr.target) (insertTarget_nil tables r.target)
  · have hno : ¬ (skipWs stmt = [] ∧ batch' = batch) := fun h => hblank h.1
    rw [if_neg hblank, or_iff_right hno, Outcome.bind_eq_ok_iff]
    simp only [Outcome.bind_eq_ok_iff, Prod.exists, insertValues]
    constructor
    · -- what the three parts return is the reading
      rintro ⟨target, htarget, map, rest, hcolumns, hvalues⟩
      cases hfind : ciFind rest (lit "values") with
      | none => simp [hfind] at hvalues
      | some v =>
          simp only [hfind, valuesTuples_eq_ok_iff] at hvalues
          obtain ⟨tuples, hread, hcounts, hitems⟩ := hvalues
          exact ⟨⟨target, map.items, rest, v, tuples⟩,
            ⟨htarget, columnMap_eq_ok_iff.mp hcolumns, map.fits, hfind, hread, hcounts⟩, hitems⟩
    · rintro ⟨r, hr, hitems⟩
      refine ⟨r.target, hr.target, ⟨r.columns, hr.room⟩, r.rest,
        columnMap_eq_ok_iff.mpr hr.columns, ?_⟩
      simp only [hr.values, valuesTuples_eq_ok_iff]
      exact ⟨r.tuples, hr.tuples, hr.counts, hitems⟩

/-! ## A batch -/

/-- `StatementRows tables text rows`: the text between two cuts of the splitter
is accepted and contributes `rows`. -/
def StatementRows (tables : Tables) (text : CString) (rows : List InsertRow) : Prop :=
  text.length < maxStatement ∧
    ((skipWs (trimInplace text) = [] ∧ rows = []) ∨
      ∃ r : Reading, r.Of tables (trimInplace text) ∧ rows = r.rows)

/-- One round of the splitting loop on a text that fits in `stmt`. -/
theorem parseStatements_cons {tables : Tables} {text : CString} {texts : List CString}
    {batch : InsertBatch} (hfits : text.length < maxStatement) :
    parseStatements tables (text :: texts) batch =
      parseInsertStatement tables (trimInplace text) batch >>= parseStatements tables texts := by
  rw [parseStatements, if_neg (Nat.not_le.mpr hfits)]
  by_cases hempty : trimInplace text = []
  · rw [if_pos hempty, hempty]
    rfl
  · rw [if_neg hempty]

/-- The rows of a batch with those of one more statement, where they fit. -/
theorem exists_batch_of_append {batch batch' : InsertBatch} {rows rest : List InsertRow}
    (h : batch'.items = batch.items ++ (rows ++ rest)) :
    ∃ middle : InsertBatch, middle.items = batch.items ++ rows := by
  have hfits := batch'.fits
  rw [h, List.length_append, List.length_append] at hfits
  exact ⟨⟨batch.items ++ rows, by rw [List.length_append]; omega⟩, rfl⟩

/-- The statements of a batch are accepted exactly when each of them is and the
rows of all of them fit, which then stand in the order of the statements. -/
theorem parseStatements_eq_ok_iff {tables : Tables} {texts : List CString}
    {batch batch' : InsertBatch} :
    parseStatements tables texts batch = .ok batch' ↔
      ∃ rowss, List.Forall₂ (StatementRows tables) texts rowss ∧
        batch'.items = batch.items ++ rowss.flatten := by
  induction texts generalizing batch with
  | nil =>
      simp only [parseStatements, Outcome.ok.injEq, List.forall₂_nil_left_iff, exists_eq_left,
        List.flatten_nil, List.append_nil]
      exact ⟨fun h => h ▸ rfl, fun h => (CountedArray.ext h).symm⟩
  | cons text texts ih =>
      by_cases hlarge : text.length ≥ maxStatement
      · rw [parseStatements, if_pos hlarge]
        refine iff_of_false (by simp) ?_
        rintro ⟨_, hrows, -⟩
        cases hrows with
        | cons hrow _ => exact absurd hrow.1 (Nat.not_lt.mpr hlarge)
      · have hfits : text.length < maxStatement := Nat.not_le.mp hlarge
        rw [parseStatements_cons hfits, Outcome.bind_eq_ok_iff]
        constructor
        · rintro ⟨middle, hstmt, hrest⟩
          obtain ⟨rowss, hrows, hitems⟩ := ih.mp hrest
          rcases parseInsertStatement_eq_ok_iff.mp hstmt with ⟨hblank, rfl⟩ | ⟨r, hr, hmiddle⟩
          · exact ⟨[] :: rowss, .cons ⟨hfits, Or.inl ⟨hblank, rfl⟩⟩ hrows, by simp [hitems]⟩
          · exact ⟨r.rows :: rowss, .cons ⟨hfits, Or.inr ⟨r, hr, rfl⟩⟩ hrows, by
              simp [hitems, hmiddle]⟩
        · rintro ⟨_, hrows, hitems⟩
          cases hrows with
          | @cons _ rows _ rowss hrow hrows =>
              rw [List.flatten_cons] at hitems
              obtain ⟨middle, hmiddle⟩ := exists_batch_of_append hitems
              refine ⟨middle, ?_, ih.mpr ⟨rowss, hrows, by simp [hitems, hmiddle]⟩⟩
              rw [parseInsertStatement_eq_ok_iff]
              rcases hrow.2 with ⟨hblank, rfl⟩ | ⟨r, hr, rfl⟩
              · exact Or.inl ⟨hblank, CountedArray.ext (by simpa using hmiddle)⟩
              · exact Or.inr ⟨r, hr, hmiddle⟩

/-- A batch is accepted exactly when each of its statements is, and the rows of
all of them are at least one and fit. -/
theorem parseBatch_eq_ok_iff {tables : Tables} {sql : CString} {batch : InsertBatch} :
    parseBatch tables sql = .ok batch ↔
      ∃ rowss, List.Forall₂ (StatementRows tables) (splitStatements sql) rowss ∧
        batch.items = rowss.flatten ∧ batch.items ≠ [] := by
  unfold parseBatch
  simp only [Outcome.bind_eq_ok_iff, parseStatements_eq_ok_iff, CountedArray.items_empty,
    List.nil_append]
  constructor
  · rintro ⟨batch', ⟨rowss, hrows, hitems⟩, h⟩
    split at h
    · cases h
    · next hcount =>
        obtain rfl := Outcome.ok.inj h
        exact ⟨rowss, hrows, hitems, fun hnil => hcount (by simp [CountedArray.count, hnil])⟩
  · rintro ⟨rowss, hrows, hitems, hne⟩
    refine ⟨batch, ⟨rowss, hrows, hitems⟩, if_neg fun hcount => hne ?_⟩
    exact List.eq_nil_of_length_eq_zero hcount

end SqlCodeGenerator
