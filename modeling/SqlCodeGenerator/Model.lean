import SqlCodeGenerator.CString
import SqlCodeGenerator.Library.Arrays

/-!
# The shared state of the server

The data model of `model.h`: columns, rows, tables, clients, jobs, and the
`SharedState` record that the worker, the two interface threads and the forked
validator see.  Every fixed-size array is a `CountedArray` or a `FixedArray` of
the source's size and every `char` array is a `CBuf`, so no value of these types
holds more than the C object has room for.

Counters and identifiers that only ever grow are natural numbers; the C code
keeps them in `int`s.  Statements that need them below `2^31` say so, as the steps in
which a client connects do; `next_job_id` has no bound, so what is said of jobs is
about fewer than `2^31` of them.
-/

namespace SqlCodeGenerator

open Library

/-! ## The limits of `model.h` -/

abbrev maxTables : Nat := 32
abbrev maxColumns : Nat := 32
abbrev maxRows : Nat := 1024
abbrev maxName : Nat := 64
abbrev maxType : Nat := 64
abbrev maxValue : Nat := 128
abbrev maxHistory : Nat := 128
abbrev maxCommand : Nat := 128
abbrev maxJobs : Nat := 128
abbrev maxJobResult : Nat := 2048
/-- The size of `SharedState.clients` and `SharedState.last_job_by_client`. -/
abbrev maxClients : Nat := 128

/-! There is a first table, and every buffer has room for the NUL that ends its
text. -/

instance : NeZero maxTables := ⟨by decide⟩
instance : NeZero maxName := ⟨by decide⟩
instance : NeZero (maxName * 2) := ⟨by decide⟩
instance : NeZero maxValue := ⟨by decide⟩
instance : NeZero maxJobResult := ⟨by decide⟩

/-! ## Tables -/

/-- `Column`.  The flags are the C truth values. -/
structure Column where
  name : CBuf maxName
  type : CBuf maxType
  primaryKey : Bool
  unique : Bool
  notNull : Bool
  refTable : CBuf maxName
  refColumn : CBuf maxName
  deriving DecidableEq

/-- One column's share of a `Row`: `values[c]` and `is_null[c]`. -/
structure Cell where
  value : CBuf maxValue
  isNull : Bool
  deriving DecidableEq

/-- `Row`: the cells by column index. -/
structure Row where
  cells : FixedArray Cell maxColumns
  deriving DecidableEq

namespace Row

/-- `row.values[c]` with `row.is_null[c]`. -/
def cell (row : Row) (c : Fin maxColumns) : Cell := row.cells.get c

/-- The row with column `c` overwritten. -/
def store (row : Row) (c : Fin maxColumns) (x : Cell) : Row := ⟨row.cells.set c x⟩

theorem cell_store (row : Row) (c d : Fin maxColumns) (x : Cell) :
    (row.store c x).cell d = if d = c then x else row.cell d :=
  FixedArray.get_set _ _ _ _

@[simp] theorem cell_store_self (row : Row) (c : Fin maxColumns) (x : Cell) :
    (row.store c x).cell c = x := by
  rw [cell_store, if_pos rfl]

theorem cell_store_of_ne (row : Row) {c d : Fin maxColumns} (x : Cell) (h : d ≠ c) :
    (row.store c x).cell d = row.cell d := by
  rw [cell_store, if_neg h]

end Row

/-- `Table`: a name, the column definitions and the stored rows. -/
structure Table where
  name : CBuf maxName
  columns : CountedArray Column maxColumns
  rows : CountedArray Row maxRows
  deriving DecidableEq

/-- The loaded tables: `table_count` and `tables`. -/
abbrev Tables := CountedArray Table maxTables

/-- `find_table`: the first table of that name. -/
def findTable (tables : Tables) (name : CString) : Option (Fin maxTables) :=
  tables.findPlace? fun table => decide (table.name.chars = name)

/-- `find_column`: the first column of that name. -/
def findColumn (table : Table) (name : CString) : Option (Fin maxColumns) :=
  table.columns.findPlace? fun column => decide (column.name.chars = name)

theorem findColumn_eq_some {table : Table} {name : CString} {c : Fin maxColumns}
    (h : findColumn table name = some c) :
    ∃ column, table.columns.items[c.val]? = some column ∧ column.name.chars = name := by
  obtain ⟨column, hcolumn, hname⟩ := CountedArray.findPlace?_eq_some h
  exact ⟨column, hcolumn, of_decide_eq_true hname⟩

/-- A column index belongs to one name only. -/
theorem findColumn_inj {table : Table} {name name' : CString} {c : Fin maxColumns}
    (h : findColumn table name = some c) (h' : findColumn table name' = some c) :
    name = name' := by
  obtain ⟨column, hcolumn, hname⟩ := findColumn_eq_some h
  obtain ⟨column', hcolumn', hname'⟩ := findColumn_eq_some h'
  rw [hcolumn, Option.some.injEq] at hcolumn'
  rw [← hname, ← hname', hcolumn']

/-- `split_qualified`: the parts before and after the first dot, each cut to its
buffer; the right part is empty when there is no dot. -/
def splitQualified (s : CString) : CBuf maxName × CBuf maxName :=
  match s.dropWhile (· ≠ dot) with
  | [] => (snprintf s, snprintf [])
  | _ :: right => (snprintf (s.takeWhile (· ≠ dot)), snprintf right)

/-! ## Clients and jobs -/

/-- `ClientInfo`. -/
structure ClientInfo where
  clientId : Int
  fd : Int
  addr : CBuf 64
  connectedAt : Int
  lastSeen : Int
  deriving DecidableEq

/-- The texts that `JobInfo.status` takes; a slot never used holds the empty
text. -/
inductive JobStatus where
  | unused
  | queued
  | running
  | done
  | error
  deriving DecidableEq

/-- `JobInfo`. -/
structure JobInfo where
  jobId : Nat
  clientId : Int
  opId : Int
  status : JobStatus
  result : CBuf maxJobResult
  queuedAt : Int
  startedAt : Int
  finishedAt : Int
  deriving DecidableEq

/-! ## The shared state -/

/-- `SharedState`. -/
structure SharedState where
  startedAt : Int
  totalCommands : Int
  insertCommands : Int
  failedCommands : Int
  cancelledCommands : Int
  totalExecMs : Int
  queueDepth : Nat
  clientCount : Nat
  nextClientId : Nat
  nextJobId : Nat
  adminConnected : Bool
  activeClientId : Int
  activeOpId : Int
  activeStartedAt : Int
  cancelClientId : Int
  clients : FixedArray ClientInfo maxClients
  lastJobByClient : FixedArray Nat maxClients
  jobs : FixedArray JobInfo maxJobs
  history : FixedArray (CBuf maxCommand) maxHistory
  historyCount : Nat
  tables : Tables
  deriving DecidableEq

/-- A `ClientInfo` after `memset`. -/
def ClientInfo.zero : ClientInfo := ⟨0, 0, snprintf [], 0, 0⟩

/-- A `JobInfo` after `memset`. -/
def JobInfo.zero : JobInfo := ⟨0, 0, 0, .unused, snprintf [], 0, 0, 0⟩

/-- `state_init` at the given time: everything zero but the start time and the
two identifier counters. -/
def stateInit (now : Int) : SharedState where
  startedAt := now
  totalCommands := 0
  insertCommands := 0
  failedCommands := 0
  cancelledCommands := 0
  totalExecMs := 0
  queueDepth := 0
  clientCount := 0
  nextClientId := 1
  nextJobId := 1
  adminConnected := false
  activeClientId := 0
  activeOpId := 0
  activeStartedAt := 0
  cancelClientId := 0
  clients := .replicate maxClients .zero
  lastJobByClient := .replicate maxClients 0
  jobs := .replicate maxJobs .zero
  history := .replicate maxHistory (snprintf [])
  historyCount := 0
  tables := .empty

end SqlCodeGenerator
