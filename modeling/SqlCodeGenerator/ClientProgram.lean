import SqlCodeGenerator.ClientPairing
import SqlCodeGenerator.Library.Dialogues
import SqlCodeGenerator.Protocol
import SqlCodeGenerator.ServerConfig

/-!
# The program of the client

`client.c` as a whole: the arguments, the handshake, the steps that the options ask for, and the
loop over the typed commands.  What the program prints is left out.

* `clientMain`: the program, as a dialogue with the server;
* `Typed`, `parseLine_line`: what is typed, and what the chain of comparisons makes of it;
* `perform_run`: a command of the dialogue is the command on a connection;
* `typed_commands_run`: the loop over the lines performs the commands that were typed.
-/

namespace SqlCodeGenerator

open Library

namespace ClientProgram

/-- What a client says to the server. -/
abbrev Talk (α : Type) : Type := Dialogue WireMessage WireMessage α

/-- The bytes of a text. -/
def bytes (text : CString) : List UInt8 := text.map Subtype.val

/-! ## Requests -/

/-- `request_text`: is it answered by `OP_OK`, and with what? -/
def requestText (clientId opId : UInt32) (payload : List UInt8) :
    Talk (Bool × Option (List UInt8)) :=
  .send ⟨clientId, opId, payload⟩ fun
    | false => .done (false, none)
    | true => .receive fun
        | none => .done (false, none)
        | some m => .done (decide (m.opId = opOk), received m.payload)

/-- `ULONG_MAX`. -/
abbrev ulongMax : Nat := 2 ^ 64 - 1

/-- `strtoul(text, NULL, 10)`. -/
def strtoul (text : CString) : Nat :=
  match strtol text with
  | none => 0
  | some (value, _) =>
      if value.natAbs > ulongMax then ulongMax
      else if value < 0 then ulongMax + 1 - value.natAbs
      else value.natAbs

/-- What `connect_protocol` comes to. -/
inductive Handshake where
  | connected (clientId : UInt32)
  | failed
  /-- `strtoul` of NULL. -/
  | undefined
  deriving DecidableEq

/-- `connect_protocol`. -/
def connectProtocol : Talk Handshake := do
  let (ok, reply) ← requestText 0 opConnect []
  if !ok then
    pure .failed
  else
    match reply with
    | none => pure .undefined
    | some reply =>
        let clientId := UInt32.ofNat (strtoul (cstr reply))
        pure (if clientId = 0 then .failed else .connected clientId)

/-! ## Files -/

/-- The loop of `upload_file` over the file: has it come to the end? -/
def uploadChunks (clientId : UInt32) : List FileRead → Talk Bool
  | [] => .done true
  | .interrupted :: rest => uploadChunks clientId rest
  | .failed :: _ => .done false
  | .bytes [] :: _ => .done true
  | .bytes (b :: data) :: rest =>
      .send ⟨clientId, opUploadChunk, b :: data⟩ fun
        | false => .done false
        | true => .receive fun
            | none => .done false
            | some m => if m.opId ≠ opOk then .done false else uploadChunks clientId rest

/-- `upload_file` from the loop on. -/
def uploadRest (clientId : UInt32) (file : LocalFile) : Talk Bool := do
  let ok ← uploadChunks clientId file.reads
  if !ok then pure false else Prod.fst <$> requestText clientId opUploadEnd []

/-- `upload_file`. -/
def uploadFile (clientId : UInt32) (path : List UInt8) (file : LocalFile) : Talk Bool :=
  if !file.opens then
    .done false
  else do
    let (ok, _) ← requestText clientId opUploadBegin path
    if !ok || !file.allocates then pure false else uploadRest clientId file

/-- The loop of `download_sql_file`, for so many messages: has the end come, and what is in the
file? -/
def receiveSql (file : OutputFile) :
    Nat → Bool → Nat → List UInt8 → Talk (Bool × List UInt8)
  | 0, _, _, _ => .cut
  | rounds + 1, sawBegin, written, saved =>
      .receive fun
        | none => .done (false, saved)
        | some m =>
            if m.opId = opDownloadBegin then
              receiveSql file rounds true written saved
            else if m.opId = opDownloadChunk then
              if !sawBegin then
                .done (false, saved)
              else if m.payload = [] then
                receiveSql file rounds sawBegin written saved
              else if file.writes written then
                receiveSql file rounds sawBegin (written + 1) (saved ++ m.payload)
              else
                .done (false, saved)
            else
              .done (decide (m.opId = opDownloadEnd), saved)

/-- `download_sql_file`. -/
def downloadSqlFile (rounds : Nat) (clientId : UInt32) (file : OutputFile) :
    Talk (Bool × List UInt8) :=
  .send ⟨clientId, opDownloadSql, []⟩ fun
    | false => .done (false, [])
    | true => if !file.creates then .done (false, []) else receiveSql file rounds false 0 []

/-- The file that `read_file` reads. -/
structure TextFile where
  opens : Bool
  /-- What `fstat` says of its size. -/
  size : Option Int
  allocates : Bool
  reads : List FileRead

/-- The loop of `read_file`. -/
def readLoop (size : Nat) : List UInt8 → List FileRead → Option (List UInt8)
  | got, [] => some got
  | got, read :: rest =>
      if size ≤ got.length then
        some got
      else
        match read with
        | .interrupted => readLoop size got rest
        | .failed => none
        | .bytes [] => some got
        | .bytes data => readLoop size (got ++ data.take (size - got.length)) rest

/-- `read_file`. -/
def readFile (file : TextFile) : Option CString :=
  match file.size with
  | none => none
  | some size =>
      if !file.opens || size < 0 || size > maxPayload || !file.allocates then
        none
      else
        match readLoop size.toNat [] file.reads with
        | none => none
        | some got => if got.length ≠ size.toNat then none else some (cstr got)

/-- What the paths name. -/
structure LocalDisk where
  input : CString → LocalFile
  output : CString → OutputFile
  text : CString → TextFile

/-! ## Commands -/

/-- The branch of the main loop for a command. -/
def perform (rounds : Nat) (clientId : UInt32) : Command → Talk Bool
  | .upload path file => uploadFile clientId path file
  | .generate => Prod.fst <$> requestText clientId opGenerateSql []
  | .download file => Prod.fst <$> downloadSqlFile rounds clientId file
  | .status jobId => Prod.fst <$> requestText clientId opJobStatus jobId
  | .result jobId => Prod.fst <$> requestText clientId opJobResult jobId
  | .insert sql => Prod.fst <$> requestText clientId opValidateInsert sql
  | .insertfile none => .done false
  | .insertfile (some sql) => Prod.fst <$> requestText clientId opValidateInsert sql

/-- What the main loop takes a line for. -/
inductive Line where
  | command (c : Command)
  | help
  | quit
  | nothing

/-- `strncmp(line, word, length) == 0`: what follows the word. -/
def after? : CString → CString → Option CString
  | [], line => some line
  | _ :: _, [] => none
  | c :: word, d :: line => if c = d then after? word line else none

/-- The chain of comparisons in the main loop. -/
def parseLine (disk : LocalDisk) (line : CString) : Line :=
  match after? (lit "upload ") line with
  | some path => .command (.upload (bytes path) (disk.input path))
  | none =>
  if line = lit "generate" then .command .generate else
  match after? (lit "download ") line with
  | some path => .command (.download (disk.output path))
  | none =>
  if line = lit "status" then .command (.status (bytes (lit "last"))) else
  match after? (lit "status ") line with
  | some jobId => .command (.status (bytes jobId))
  | none =>
  if line = lit "result" then .command (.result (bytes (lit "last"))) else
  match after? (lit "result ") line with
  | some jobId => .command (.result (bytes jobId))
  | none =>
  match after? (lit "insert ") line with
  | some sql => .command (.insert (bytes sql))
  | none =>
  match after? (lit "insertfile ") line with
  | some path => .command (.insertfile ((readFile (disk.text path)).map bytes))
  | none =>
  if line = lit "help" then .help
  else if line = lit "quit" ∨ line = lit "exit" then .quit
  else if line ≠ [] then .help
  else .nothing

/-- The size of the buffer `line` of the main loop. -/
abbrev typedSize : Nat := 8192

/-- The main loop over what is typed, by what is done for a command and in the end; each line
finds the disk as it is then. -/
def mainLoop {m : Type → Type} [Monad m] (run : Command → m Unit) (bye : m Unit)
    (disk : Nat → LocalDisk) (n : Nat) (stdin : CString) : m Unit :=
  match stdin with
  | [] => pure ()
  | c :: text =>
      let line := (fgets (typedSize - 1) (c :: text)).1.takeWhile (· ≠ newline)
      let rest := (fgets (typedSize - 1) (c :: text)).2
      match parseLine (disk n) line with
      | .command command => do
          run command
          mainLoop run bye disk (n + 1) rest
      | .quit => bye
      | .help => mainLoop run bye disk (n + 1) rest
      | .nothing => mainLoop run bye disk (n + 1) rest
termination_by stdin.length
decreasing_by all_goals exact length_fgets_lt (typedSize - 2) c text

/-! ## The program -/

/-- What the options leave in the variables of `main`. -/
structure ClientOptions where
  host : CString
  port : Nat
  input : Option CString
  insert : Option CString
  download : Option CString
  generate : Bool
  noRepl : Bool

/-- `SQLCG_PORT` and the other values that they begin with. -/
def ClientOptions.defaults : ClientOptions :=
  ⟨lit "127.0.0.1", 18081, none, none, none, false, false⟩

/-- `parse_port`. -/
def parsePort (value : CString) : Option Nat := (parseNumber value 1 65535).map Int.toNat

/-- `argv[i][0] == '-'`. -/
def isOption : CString → Bool
  | [] => false
  | c :: _ => decide (c.val = 45)

/-- The loop over the arguments: the options, or the status that the program ends with. -/
def parseArgs (o : ClientOptions) : List CString → Except Nat ClientOptions
  | [] => .ok o
  | [arg] =>
      if arg = lit "--help" then .error 0
      else if arg = lit "--generate" then .ok { o with generate := true }
      else if arg = lit "--no-repl" then .ok { o with noRepl := true }
      else if !isOption arg then .ok { o with host := arg }
      else .error 1
  | arg :: operand :: rest =>
      if arg = lit "--help" then .error 0
      else if arg = lit "--host" then parseArgs { o with host := operand } rest
      else if arg = lit "--port" then
        match parsePort operand with
        | none => .error 1
        | some port => parseArgs { o with port := port } rest
      else if arg = lit "--input" then parseArgs { o with input := some operand } rest
      else if arg = lit "--insert-file" then parseArgs { o with insert := some operand } rest
      else if arg = lit "--download-sql" then parseArgs { o with download := some operand } rest
      else if arg = lit "--generate" then parseArgs { o with generate := true } (operand :: rest)
      else if arg = lit "--no-repl" then parseArgs { o with noRepl := true } (operand :: rest)
      else if !isOption arg then parseArgs { o with host := arg } (operand :: rest)
      else .error 1

section Options

variable (rounds : Nat) (clientId : UInt32) (disk : LocalDisk) (o : ClientOptions)

/-! The steps that the options ask for, in their order. -/

def inputStep : Talk Bool :=
  match o.input with
  | none => .done true
  | some path => uploadFile clientId (bytes path) (disk.input path)

def generateStep : Talk Bool :=
  if o.generate then Prod.fst <$> requestText clientId opGenerateSql [] else .done true

/-- With what is in the file then. -/
def downloadStep : Talk (Bool × List UInt8) :=
  match o.download with
  | none => .done (true, [])
  | some path => downloadSqlFile rounds clientId (disk.output path)

def insertStep : Talk Bool :=
  match o.insert with
  | none => .done true
  | some path =>
      match readFile (disk.text path) with
      | none => .done false
      | some sql => Prod.fst <$> requestText clientId opValidateInsert (bytes sql)

/-- The steps up to the first that fails: have all succeeded, and what is in the file of the
download? -/
def runOptions : Talk (Bool × List UInt8) := do
  let uploaded ← inputStep clientId disk o
  if !uploaded then
    pure (false, [])
  else
    let generated ← generateStep clientId o
    if !generated then
      pure (false, [])
    else
      let (downloaded, saved) ← downloadStep rounds clientId disk o
      if !downloaded then
        pure (false, saved)
      else
        let inserted ← insertStep clientId disk o
        pure (inserted, saved)

end Options

/-- How the program ends, and what is in the file that `--download-sql` names. -/
inductive ClientExit where
  | status (code : Nat) (saved : List UInt8)
  | undefined
  deriving DecidableEq

/-- `main` once it is connected, by what it does after the options. -/
def clientSession (rounds : Nat) (disk : LocalDisk) (o : ClientOptions)
    (follow : UInt32 → Talk Unit) : Talk ClientExit := do
  match ← connectProtocol with
  | .failed => pure (.status 1 [])
  | .undefined => pure .undefined
  | .connected clientId =>
      let (ok, saved) ← runOptions rounds clientId disk o
      if !ok then
        pure (.status 1 saved)
      else
        follow clientId
        pure (.status 0 saved)

/-- The farewell. -/
def sayBye (clientId : UInt32) : Talk Unit := do
  let _ ← requestText clientId opBye []
  pure ()

/-- A command of the main loop. -/
def runCommand (rounds : Nat) (clientId : UInt32) (c : Command) : Talk Unit := do
  let _ ← perform rounds clientId c
  pure ()

/-- `main`, by which servers can be reached. -/
def clientMain (rounds : Nat) (connects : CString → Nat → Bool) (disk : Nat → LocalDisk)
    (args : List CString) (stdin : CString) : Talk ClientExit :=
  match parseArgs .defaults args with
  | .error code => pure (.status code [])
  | .ok o =>
      if !connects o.host o.port then
        pure (.status 1 [])
      else
        clientSession rounds (disk 0) o fun clientId =>
          if o.noRepl then sayBye clientId
          else mainLoop (runCommand rounds clientId) (sayBye clientId) disk 1 stdin

/-! ## What is typed -/

/-- A line that is typed. -/
inductive Typed where
  | upload (path : CString)
  | generate
  | download (path : CString)
  | status (jobId : Option CString)
  | result (jobId : Option CString)
  | insert (sql : CString)
  | insertfile (path : CString)
  | help
  | blank

namespace Typed

/-- The line. -/
def line : Typed → CString
  | upload path => lit "upload " ++ path
  | generate => lit "generate"
  | download path => lit "download " ++ path
  | status none => lit "status"
  | status (some jobId) => lit "status " ++ jobId
  | result none => lit "result"
  | result (some jobId) => lit "result " ++ jobId
  | insert sql => lit "insert " ++ sql
  | insertfile path => lit "insertfile " ++ path
  | help => lit "help"
  | blank => []

/-- The command that is meant. -/
def command? (disk : LocalDisk) : Typed → Option Command
  | upload path => some (.upload (bytes path) (disk.input path))
  | generate => some .generate
  | download path => some (.download (disk.output path))
  | status jobId => some (.status (bytes (jobId.getD (lit "last"))))
  | result jobId => some (.result (bytes (jobId.getD (lit "last"))))
  | insert sql => some (.insert (bytes sql))
  | insertfile path => some (.insertfile ((readFile (disk.text path)).map bytes))
  | help => none
  | blank => none

/-- The line fits the buffer, with its end. -/
structure Fits (t : Typed) : Prop where
  newline : newline ∉ t.line
  length : t.line.length < typedSize - 1

end Typed

/-- The comparisons find the command that was typed. -/
theorem parseLine_line (disk : LocalDisk) (t : Typed) :
    parseLine disk t.line = (match t.command? disk with
      | some c => .command c
      | none => match t with
        | .blank => .nothing
        | _ => .help) := by
  cases t with
  | upload path => rfl
  | generate => rfl
  | download path => rfl
  | status jobId => cases jobId <;> rfl
  | result jobId => cases jobId <;> rfl
  | insert sql => rfl
  | insertfile path => rfl
  | help => rfl
  | blank => rfl

/-- What is typed, line by line. -/
def typedText (typed : List Typed) : CString := typed.flatMap fun t => t.line ++ [newline]

/-- The commands that were typed, each with the disk as it is then. -/
def commandsOf (disk : Nat → LocalDisk) : Nat → List Typed → List Command
  | _, [] => []
  | n, t :: rest => (t.command? (disk n)).toList ++ commandsOf disk (n + 1) rest

/-- How the input ends: at its end, or with a word that leaves, whatever follows. -/
inductive Ending where
  | eof
  | leave (exit : Bool) (rest : CString)

def Ending.text : Ending → CString
  | eof => []
  | leave exit rest => (if exit then lit "exit" else lit "quit") ++ newline :: rest

/-- What is done in the end. -/
def Ending.follow {m : Type → Type} [Monad m] (bye : m Unit) : Ending → m Unit
  | eof => pure ()
  | leave _ _ => bye

section Loop

variable {m : Type → Type} [Monad m] {run : Command → m Unit} {bye : m Unit}
  {disk : Nat → LocalDisk}

/-- A round of the loop with a line that fits the buffer. -/
theorem mainLoop_line {line : CString} (hline : newline ∉ line)
    (hlength : line.length < typedSize - 1) (n : Nat) (rest : CString) :
    mainLoop run bye disk n (line ++ newline :: rest) =
      match parseLine (disk n) line with
      | .command command => do
          run command
          mainLoop run bye disk (n + 1) rest
      | .quit => bye
      | .help => mainLoop run bye disk (n + 1) rest
      | .nothing => mainLoop run bye disk (n + 1) rest := by
  have hread := fgets_line hline hlength rest
  have htext : (line ++ [newline]).takeWhile (· ≠ newline) = line := by
    rw [List.takeWhile_append_of_pos]
    · simp
    · intro c hc
      simpa using fun heq : c = newline => hline (heq ▸ hc)
  obtain ⟨c, text, hcons⟩ : ∃ c text, line ++ newline :: rest = c :: text := by
    cases line with
    | nil => exact ⟨_, _, rfl⟩
    | cons c line => exact ⟨_, _, rfl⟩
  rw [hcons] at hread ⊢
  rw [mainLoop, hread, htext]

variable [LawfulMonad m]

/-- The loop performs the commands that were typed, and then leaves. -/
theorem mainLoop_typed {typed : List Typed} (hfits : ∀ t ∈ typed, t.Fits) (ending : Ending)
    (n : Nat) :
    mainLoop run bye disk n (typedText typed ++ ending.text) =
      forM (commandsOf disk n typed) run >>= fun _ => ending.follow bye := by
  induction typed generalizing n with
  | nil =>
      rw [commandsOf, List.forM_nil, pure_bind]
      cases ending with
      | eof =>
          rw [typedText, List.flatMap_nil, Ending.text, List.nil_append, mainLoop, Ending.follow]
      | leave exit rest =>
          rw [typedText, List.flatMap_nil, List.nil_append, Ending.text, Ending.follow]
          cases exit with
          | false => exact mainLoop_line (by decide) (by decide) n rest
          | true => exact mainLoop_line (by decide) (by decide) n rest
  | cons t typed ih =>
      obtain ⟨hline, hlength⟩ := hfits t List.mem_cons_self
      have hrest := ih (fun t' h => hfits t' (List.mem_cons_of_mem t h)) (n + 1)
      have htext : typedText (t :: typed) ++ ending.text =
          t.line ++ newline :: (typedText typed ++ ending.text) := by
        simp [typedText]
      rw [htext, mainLoop_line hline hlength, parseLine_line, commandsOf, hrest]
      cases hcommand : t.command? (disk n) with
      | none =>
          rw [Option.toList_none, List.nil_append]
          cases t <;> rfl
      | some command =>
          rw [Option.toList_some, List.cons_append, List.nil_append, List.forM_cons, bind_assoc]

end Loop

/-! ## Commands on a connection that stays up -/

/-- A server that answers, at the end of a connection. -/
def answeringPartner (w : Answering) : Partner Client WireMessage WireMessage where
  take c m := (true, c.send w m.opId m.payload)
  give c := c.receive.map fun (m, c) => (some ⟨m.clientId, m.opId, m.payload⟩, c)

section Connection

variable (w : Answering) (clientId : UInt32)

theorem requestText_run (opId : UInt32) (payload : List UInt8) (c : Client) :
    (Prod.fst <$> requestText clientId opId payload).run (answeringPartner w) c =
      SqlCodeGenerator.requestText w opId payload c := by
  rw [Dialogue.run_map]
  simp only [requestText, SqlCodeGenerator.requestText, Dialogue.run, answeringPartner]
  cases (c.send w opId payload).receive with
  | none => rfl
  | some received => rfl

/-- What follows a request. -/
theorem requestText_bind_run {α : Type} (opId : UInt32) (payload : List UInt8) (c : Client)
    (next : Bool → Talk α) :
    (requestText clientId opId payload >>= fun r => next r.1).run (answeringPartner w) c =
      (SqlCodeGenerator.requestText w opId payload c).bind fun (ok, c) =>
        (next ok).run (answeringPartner w) c := by
  rw [← requestText_run w clientId, Dialogue.run_map, Dialogue.run_bind, Option.bind_map]
  rfl

theorem uploadChunks_run (reads : List FileRead) (c : Client) :
    (uploadChunks clientId reads).run (answeringPartner w) c =
      SqlCodeGenerator.uploadChunks w reads c := by
  induction reads generalizing c with
  | nil => rfl
  | cons read rest ih =>
      cases read with
      | interrupted => exact ih c
      | failed => rfl
      | bytes data =>
          cases data with
          | nil => rfl
          | cons b data =>
              simp only [uploadChunks, SqlCodeGenerator.uploadChunks, Dialogue.run,
                answeringPartner]
              cases (c.send w opUploadChunk (b :: data)).receive with
              | none => rfl
              | some received =>
                  obtain ⟨m, c⟩ := received
                  show (if m.opId ≠ opOk then .done false
                    else uploadChunks clientId rest).run (answeringPartner w) c =
                      if m.opId ≠ opOk then some (false, c)
                      else SqlCodeGenerator.uploadChunks w rest c
                  by_cases hop : m.opId ≠ opOk
                  · rw [if_pos hop, if_pos hop]
                    rfl
                  · rw [if_neg hop, if_neg hop]
                    exact ih c

theorem uploadFile_run (path : List UInt8) (file : LocalFile) (c : Client) :
    (uploadFile clientId path file).run (answeringPartner w) c =
      SqlCodeGenerator.uploadFile w path file c := by
  unfold uploadFile SqlCodeGenerator.uploadFile
  cases file.opens with
  | false => rfl
  | true =>
      refine (requestText_bind_run w clientId opUploadBegin path c fun ok =>
        if !ok || !file.allocates then pure false else uploadRest clientId file).trans ?_
      refine Option.bind_congr fun (ok, c) _ => ?_
      dsimp only
      by_cases hstop : (!ok || !file.allocates) = true
      · rw [if_pos hstop, if_pos hstop]
        rfl
      · rw [if_neg hstop, if_neg hstop, uploadRest, Dialogue.run_bind, uploadChunks_run]
        refine Option.bind_congr fun (sent, c) _ => ?_
        cases sent with
        | false => rfl
        | true => exact requestText_run w clientId opUploadEnd [] c

/-- The loop over the stream, if it is followed beyond what is unread. -/
theorem receiveSql_run (file : OutputFile) {rounds : Nat} (sawBegin : Bool) (written : Nat)
    (saved : List UInt8) {c : Client} (hrounds : c.unread.length < rounds) :
    (Prod.fst <$> receiveSql file rounds sawBegin written saved).run (answeringPartner w) c =
      SqlCodeGenerator.receiveSql file sawBegin written c.unread c := by
  rw [Dialogue.run_map]
  induction rounds generalizing sawBegin written saved c with
  | zero => cases hrounds
  | succ rounds ih =>
      cases hunread : c.unread with
      | nil =>
          have hnone : (answeringPartner w).give c = none := by
            simp only [answeringPartner, Client.receive, hunread, Option.map_none]
          rw [receiveSql, Dialogue.run, hnone]
          rfl
      | cons head rest =>
          obtain ⟨n, m⟩ := head
          have hshort : rest.length < rounds := by
            rw [hunread, List.length_cons] at hrounds
            omega
          have hgive : (answeringPartner w).give c = some (some ⟨m.clientId, m.opId, m.payload⟩,
              { c with unread := rest, taken := c.taken ++ [n] }) := by
            simp only [answeringPartner, Client.receive, hunread, Option.map_some]
          have hlater := fun sawBegin written saved => ih (c :=
            { c with unread := rest, taken := c.taken ++ [n] }) sawBegin written saved hshort
          rw [receiveSql, Dialogue.run, hgive, SqlCodeGenerator.receiveSql]
          dsimp only at hlater ⊢
          -- the branches in the order of the loop
          split
          · exact hlater true written saved
          · split
            · split
              · rfl
              · split
                · exact hlater sawBegin written saved
                · split
                  · exact hlater sawBegin (written + 1) (saved ++ m.payload)
                  · rfl
            · rfl

end Connection

/-- A command of the dialogue is the command on a connection, if the stream of a download is
followed far enough. -/
theorem perform_run (w : Answering) (clientId : UInt32) (command : Command) (c : Client) :
    ∃ bound, ∀ rounds, bound ≤ rounds →
      (perform rounds clientId command).run (answeringPartner w) c = command.perform w c := by
  cases command with
  | upload path file => exact ⟨0, fun rounds _ => uploadFile_run w clientId path file c⟩
  | generate => exact ⟨0, fun rounds _ => requestText_run w clientId opGenerateSql [] c⟩
  | status jobId => exact ⟨0, fun rounds _ => requestText_run w clientId opJobStatus jobId c⟩
  | result jobId => exact ⟨0, fun rounds _ => requestText_run w clientId opJobResult jobId c⟩
  | insert sql => exact ⟨0, fun rounds _ => requestText_run w clientId opValidateInsert sql c⟩
  | insertfile sql =>
      cases sql with
      | none => exact ⟨0, fun rounds _ => rfl⟩
      | some sql => exact ⟨0, fun rounds _ => requestText_run w clientId opValidateInsert sql c⟩
  | download file =>
      refine ⟨(c.send w opDownloadSql []).unread.length + 1, fun rounds hrounds => ?_⟩
      show (Prod.fst <$> downloadSqlFile rounds clientId file).run (answeringPartner w) c =
        SqlCodeGenerator.downloadSqlFile w file c
      unfold downloadSqlFile SqlCodeGenerator.downloadSqlFile
      rw [Dialogue.run_map]
      cases hcreates : file.creates with
      | false => rfl
      | true =>
          have hreceive := receiveSql_run w file false 0 [] (c := c.send w opDownloadSql []) hrounds
          rw [Dialogue.run_map] at hreceive
          exact hreceive

/-- The commands on a connection that stays up, one after the other. -/
def performAll (w : Answering) (commands : List Command) (c : Client) : Option Client :=
  commands.foldlM (fun c (command : Command) => (command.perform w c).map Prod.snd) c

theorem commands_run (w : Answering) (clientId : UInt32) (commands : List Command) (c : Client) :
    ∃ bound, ∀ rounds, bound ≤ rounds →
      (forM commands (runCommand rounds clientId)).run (answeringPartner w) c =
        (performAll w commands c).map fun c => ((), c) := by
  induction commands generalizing c with
  | nil => exact ⟨0, fun rounds _ => rfl⟩
  | cons command commands ih =>
      obtain ⟨first, hfirst⟩ := perform_run w clientId command c
      have hcons : ∀ rounds, first ≤ rounds →
          (forM (command :: commands) (runCommand rounds clientId)).run (answeringPartner w) c =
            (command.perform w c).bind fun (_, c) =>
              (forM commands (runCommand rounds clientId)).run (answeringPartner w) c := by
        intro rounds hrounds
        rw [List.forM_cons, Dialogue.run_bind, runCommand, Dialogue.run_bind, hfirst rounds hrounds,
          Option.bind_assoc]
        rfl
      cases hperform : command.perform w c with
      | none =>
          refine ⟨first, fun rounds hrounds => ?_⟩
          rw [hcons rounds hrounds, performAll, List.foldlM_cons, hperform]
          rfl
      | some performed =>
          obtain ⟨rest, hrest⟩ := ih performed.2
          refine ⟨max first rest, fun rounds hrounds => ?_⟩
          rw [hcons rounds ((le_max_left _ _).trans hrounds), performAll, List.foldlM_cons,
            hperform]
          exact hrest rounds ((le_max_right _ _).trans hrounds)

/-- Whatever is typed, each on a line that fits the buffer, up to the end of the input: on a
connection that stays up the loop does what the commands do, one after the other, and nothing
else.  Where one of them waits forever, so does the loop. -/
theorem typed_commands_run (w : Answering) (clientId : UInt32) (disk : Nat → LocalDisk) (n : Nat)
    {typed : List Typed} (hfits : ∀ t ∈ typed, t.Fits) (bye : Talk Unit) (c : Client) :
    ∃ bound, ∀ rounds, bound ≤ rounds →
      (mainLoop (runCommand rounds clientId) bye disk n (typedText typed)).run
          (answeringPartner w) c =
        (performAll w (commandsOf disk n typed) c).map fun c => ((), c) := by
  obtain ⟨bound, hbound⟩ := commands_run w clientId (commandsOf disk n typed) c
  refine ⟨bound, fun rounds hrounds => ?_⟩
  have hloop : mainLoop (runCommand rounds clientId) bye disk n
      (typedText typed ++ Ending.eof.text) =
        forM (commandsOf disk n typed) (runCommand rounds clientId) >>= fun _ =>
          Ending.eof.follow bye := mainLoop_typed hfits .eof n
  rw [Ending.text, List.append_nil, Ending.follow, bind_pure_unit] at hloop
  rw [hloop]
  exact hbound rounds hrounds

/-- A disk without files, on which every file can be written. -/
def emptyDisk : LocalDisk where
  input _ := ⟨false, true, []⟩
  output _ := ⟨true, fun _ => true⟩
  text _ := ⟨false, none, true, []⟩

def toldLines : List Typed := [.status none, .help, .insert (lit "x")]

theorem fits_toldLines : ∀ t ∈ toldLines, t.Fits := by
  have hfits : ∀ t ∈ toldLines, newline ∉ t.line ∧ t.line.length < typedSize - 1 := by decide
  exact fun t ht => ⟨(hfits t ht).1, (hfits t ht).2⟩

/-- A question for the last job, a line that is not sent, and an INSERT. -/
theorem typed_commands_run_told :
    ∃ bound, ∀ rounds, bound ≤ rounds →
      (mainLoop (runCommand rounds 1) (sayBye 1) (fun _ => emptyDisk) 1
          (lit "status\nhelp\ninsert x\n")).run (answeringPartner fileServer) .init =
        (performAll fileServer [.status (bytes (lit "last")), .insert (bytes (lit "x"))]
          .init).map fun c => ((), c) := by
  have htext : typedText toldLines = lit "status\nhelp\ninsert x\n" := by decide
  have htold := typed_commands_run fileServer 1 (fun _ => emptyDisk) 1 fits_toldLines (sayBye 1)
    .init
  rw [htext] at htold
  exact htold

/-! ## Options -/

/-- An option of the client. -/
inductive ClientOption where
  /-- A host, behind `--host` or alone. -/
  | host (flag : Bool) (value : CString)
  | port (value : CString)
  | input (path : CString)
  | insertFile (path : CString)
  | downloadSql (path : CString)
  | generate
  | noRepl

namespace ClientOption

/-- The arguments that make the option. -/
def words : ClientOption → List CString
  | host true value => [lit "--host", value]
  | host false value => [value]
  | port value => [lit "--port", value]
  | input path => [lit "--input", path]
  | insertFile path => [lit "--insert-file", path]
  | downloadSql path => [lit "--download-sql", path]
  | generate => [lit "--generate"]
  | noRepl => [lit "--no-repl"]

/-- A host alone is not taken for an option. -/
def Plain : ClientOption → Prop
  | host false value => isOption value = false
  | _ => True

/-- What the option does; an invalid port ends the program. -/
def apply (o : ClientOptions) : ClientOption → Except Nat ClientOptions
  | host _ value => .ok { o with host := value }
  | port value =>
      match parsePort value with
      | none => .error 1
      | some n => .ok { o with port := n }
  | input path => .ok { o with input := some path }
  | insertFile path => .ok { o with insert := some path }
  | downloadSql path => .ok { o with download := some path }
  | generate => .ok { o with generate := true }
  | noRepl => .ok { o with noRepl := true }

end ClientOption

/-- A host alone is none of the words. -/
theorem parseArgs_host {o : ClientOptions} {value : CString}
    (hplain : isOption value = false) (rest : List CString) :
    parseArgs o (value :: rest) = parseArgs { o with host := value } rest := by
  have hword : ∀ word : CString, isOption word = true → value ≠ word := by
    rintro word hword rfl
    rw [hplain] at hword
    cases hword
  have hbare : (!isOption value) = true := by rw [hplain, Bool.not_false]
  have hhelp := hword (lit "--help") rfl
  have hhost := hword (lit "--host") rfl
  have hport := hword (lit "--port") rfl
  have hinput := hword (lit "--input") rfl
  have hinsert := hword (lit "--insert-file") rfl
  have hdownload := hword (lit "--download-sql") rfl
  have hgenerate := hword (lit "--generate") rfl
  have hnoRepl := hword (lit "--no-repl") rfl
  cases rest with
  | nil =>
      simp only [parseArgs, if_neg hhelp, if_neg hgenerate, if_neg hnoRepl, if_pos hbare]
  | cons operand rest =>
      rw [parseArgs, if_neg hhelp, if_neg hhost, if_neg hport, if_neg hinput, if_neg hinsert,
        if_neg hdownload, if_neg hgenerate, if_neg hnoRepl, if_pos hbare]

theorem parseArgs_words {option : ClientOption} (hplain : option.Plain) (o : ClientOptions)
    (rest : List CString) :
    parseArgs o (option.words ++ rest) = (option.apply o).bind fun o => parseArgs o rest := by
  cases option with
  | host flag value =>
      cases flag with
      | false => exact parseArgs_host hplain rest
      | true => rfl
  | port value =>
      show (match parsePort value with
        | none => Except.error 1
        | some port => parseArgs { o with port := port } rest) = _
      simp only [ClientOption.apply]
      cases parsePort value with
      | none => rfl
      | some port => rfl
  | input path => rfl
  | insertFile path => rfl
  | downloadSql path => rfl
  | generate => cases rest <;> rfl
  | noRepl => cases rest <;> rfl

/-- The loop over the arguments does what the options do, one after the other. -/
theorem parseArgs_options {options : List ClientOption} (hplain : ∀ option ∈ options, option.Plain)
    (o : ClientOptions) :
    parseArgs o (options.flatMap ClientOption.words) =
      options.foldlM ClientOption.apply o := by
  induction options generalizing o with
  | nil => rfl
  | cons option options ih =>
      have hrest := fun o => ih (fun other h => hplain other (List.mem_cons_of_mem option h)) o
      rw [List.flatMap_cons, parseArgs_words (hplain option List.mem_cons_self), List.foldlM_cons]
      exact bind_congr hrest

/-- Whatever options are given, in any order, and whatever commands are typed, each on a line that
fits the buffer: the program ends with the first invalid port, or says what the options and then
the commands say, in their order, and leaves where `quit` or `exit` was typed. -/
theorem client_does_as_told (rounds : Nat) (connects : CString → Nat → Bool)
    (disk : Nat → LocalDisk) {options : List ClientOption}
    (hplain : ∀ option ∈ options, option.Plain) {typed : List Typed}
    (hfits : ∀ t ∈ typed, t.Fits) (ending : Ending) :
    clientMain rounds connects disk (options.flatMap ClientOption.words)
        (typedText typed ++ ending.text) =
      match options.foldlM ClientOption.apply ClientOptions.defaults with
      | .error code => .done (.status code [])
      | .ok o =>
          if !connects o.host o.port then
            .done (.status 1 [])
          else
            clientSession rounds (disk 0) o fun clientId =>
              if o.noRepl then
                sayBye clientId
              else
                forM (commandsOf disk 1 typed) (runCommand rounds clientId) >>= fun _ =>
                  ending.follow (sayBye clientId) := by
  unfold clientMain
  rw [parseArgs_options hplain]
  simp only [mainLoop_typed hfits]
  rfl

/-- A port, a host and a request for the SQL, and then the typed lines up to `quit`. -/
theorem client_does_as_told_sample :
    clientMain 1 (fun _ _ => true) (fun _ => emptyDisk)
        [lit "--port", lit "9000", lit "example", lit "--generate"]
        (lit "status\nhelp\ninsert x\nquit\n") =
      clientSession 1 emptyDisk ⟨lit "example", 9000, none, none, none, true, false⟩
        fun clientId =>
          forM [Command.status (bytes (lit "last")), .insert (bytes (lit "x"))]
            (runCommand 1 clientId) >>= fun _ => sayBye clientId := by
  have hplain : ∀ option ∈ [ClientOption.port (lit "9000"), .host false (lit "example"),
      .generate], option.Plain := by
    refine List.forall_mem_cons.mpr ⟨trivial, List.forall_mem_cons.mpr ⟨?_, ?_⟩⟩
    · show isOption (lit "example") = false
      decide
    · exact List.forall_mem_singleton.mpr trivial
  have htext : typedText toldLines ++ (Ending.leave false []).text =
      lit "status\nhelp\ninsert x\nquit\n" := by decide
  have htold := client_does_as_told 1 (fun _ _ => true) (fun _ => emptyDisk) hplain
    fits_toldLines (.leave false [])
  rw [htext] at htold
  exact htold

end ClientProgram

end SqlCodeGenerator
