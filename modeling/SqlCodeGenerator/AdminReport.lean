import SqlCodeGenerator.DdlRendering
import SqlCodeGenerator.JobQueries

/-!
# Reports for the admin

`admin_report` of `model.c`.  Each category appends its lines to the caller's buffer;
the clock that two of them read is an argument.
-/

namespace SqlCodeGenerator

open Library

/-- `appendf` of several texts, one after the other. -/
def appendLines (outLen : Nat) (lines : List CString) : CString :=
  lines.foldl (appendf outLen) []

/-- The lines one after the other, cut to the buffer. -/
theorem appendLines_eq (outLen : Nat) (lines : List CString) :
    appendLines outLen lines = lines.flatten.take (outLen - 1) := by
  have hfold : ∀ whole : CString, lines.foldl (appendf outLen) (whole.take (outLen - 1)) =
      (whole ++ lines.flatten).take (outLen - 1) := by
    induction lines with
    | nil => simp
    | cons line lines ih =>
        intro whole
        rw [List.foldl_cons, appendf_eq, ih, List.flatten_cons, List.append_assoc]
  have hall := hfold []
  rwa [List.take_nil, List.nil_append] at hall

/-- `long` division, and 0 where nothing has been counted. -/
def averageTime (state : SharedState) : Int :=
  if state.totalCommands ≠ 0 then state.totalExecMs.tdiv state.totalCommands else 0

namespace AdminReport

def clients (now : Int) (state : SharedState) : List CString :=
  (lit "Connected ordinary clients: " ++ decimal state.clientCount ++ lit "\n") ::
    ((List.finRange maxClients).map state.clients.get).filterMap fun client =>
      if client.fd > 0 then
        some (lit "client=" ++ decimalInt client.clientId ++ lit " fd=" ++ decimalInt client.fd ++
          lit " addr=" ++ client.addr.chars ++ lit " idle=" ++ decimalInt (now - client.lastSeen) ++
          lit "s\n")
      else
        none

def commands (now : Int) (state : SharedState) : List CString :=
  [lit "Total commands: " ++ decimalInt state.totalCommands ++
      lit "\nInsert commands: " ++ decimalInt state.insertCommands ++
      lit "\nFailed commands: " ++ decimalInt state.failedCommands ++
      lit "\nCancelled commands: " ++ decimalInt state.cancelledCommands ++ lit "\n",
    if state.activeClientId > 0 then
      lit "Active command: client=" ++ decimalInt state.activeClientId ++ lit " op=" ++
        decimalInt state.activeOpId ++ lit " running=" ++
        decimalInt (now - state.activeStartedAt) ++ lit "s\n"
    else
      lit "Active command: none\n"]

def avg (state : SharedState) : List CString :=
  [lit "Average execution time: " ++ decimalInt (averageTime state) ++ lit " ms\n"]

/-- The last `MAX_HISTORY` lines, from the oldest on. -/
def history (state : SharedState) : List CString :=
  lit "Recent history:\n" ::
    (List.range' (state.historyCount - maxHistory)
        (state.historyCount - (state.historyCount - maxHistory))).map fun i =>
      (state.history.get ⟨i % maxHistory, Nat.mod_lt _ (by decide)⟩).chars ++ lit "\n"

def tables (state : SharedState) : List CString :=
  (lit "Tables loaded: " ++ decimal state.tables.count ++ lit "\n") ::
    state.tables.items.map fun table =>
      table.name.chars ++ lit ": " ++ decimal table.columns.count ++ lit " columns, " ++
        decimal table.rows.count ++ lit " rows\n"

def queue (state : SharedState) : List CString :=
  (lit "Ordinary request queue depth: " ++ decimal state.queueDepth ++ lit "\n") ::
    if state.cancelClientId > 0 then
      [lit "Pending cancellation for client: " ++ decimalInt state.cancelClientId ++ lit "\n"]
    else
      []

def jobs (state : SharedState) : List CString :=
  lit "Recent processing jobs:\n" ::
    ((List.finRange maxJobs).map state.jobs.get).filterMap fun job =>
      if job.jobId > 0 then
        some (lit "job=" ++ decimal job.jobId ++ lit " client=" ++ decimalInt job.clientId ++
          lit " op=" ++ decimalInt job.opId ++ lit " status=" ++ job.status.text ++ lit "\n")
      else
        none

def unknown : List CString :=
  [lit "Unknown category. Use: clients, commands, avg, history, tables, queue, jobs\n"]

end AdminReport

/-- `admin_report`: the text left in a buffer of `outLen` characters. -/
def adminReport (now : Int) (state : SharedState) (category : CString) (outLen : Nat) : CString :=
  appendLines outLen
    (if category = lit "clients" then AdminReport.clients now state
    else if category = lit "commands" then AdminReport.commands now state
    else if category = lit "avg" then AdminReport.avg state
    else if category = lit "history" then AdminReport.history state
    else if category = lit "tables" then AdminReport.tables state
    else if category = lit "queue" then AdminReport.queue state
    else if category = lit "jobs" then AdminReport.jobs state
    else AdminReport.unknown)

end SqlCodeGenerator
