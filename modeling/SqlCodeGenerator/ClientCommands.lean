import SqlCodeGenerator.Connections
import SqlCodeGenerator.RequestEffects

/-!
# Commands of the client

`request_text`, `upload_file`, `download_sql_file` and the commands of the main loop of
`client.c`, on a connection that stays up: a message that is sent reaches the server,
and a receive waits for the next message of the stream.

* `ServerAnswer`: what the server sends for one message, in any of its states.
* `Command.perform`: a command.  It has no result where it waits for a message that
  nobody sends.
-/

namespace SqlCodeGenerator

open Library

/-! ## The server -/

/-- What the server sends for a message of a client. -/
inductive ServerAnswer (opId : UInt32) (payload : List UInt8) : List Message → Prop where
  /-- The worker has processed the request. -/
  | processed (env : RequestEnv) (r : Request) (state state' : SharedState) (h : Handled)
      (hop : r.opId = opId) (hpayload : r.payload = received payload)
      (hhandle : handleRequest env r state = some (state', h)) :
      ServerAnswer opId payload (h.sent r)
  | queried (fd : Int) (clientId : UInt32) (state : SharedState)
      (hop : opId = opJobStatus ∨ opId = opJobResult) :
      ServerAnswer opId payload [respondJobInfo state fd clientId opId (received payload)]
  | unregistered (fd : Int) (clientId : UInt32) :
      ServerAnswer opId payload
        [respondText fd clientId opError (lit "client must CONNECT first")]
  | outOfMemory (fd : Int) (clientId : UInt32) :
      ServerAnswer opId payload [respondText fd clientId opError (lit "server out of memory")]

/-- The answers to the messages of a client, by the number of the message. -/
structure Answering where
  answer : Nat → UInt32 → List UInt8 → List Message
  answers : ∀ n opId payload, ServerAnswer opId payload (answer n opId payload)

/-! ## The client's end of the connection -/

/-- The connection as the client has it. -/
structure Client where
  /-- The messages that it has sent. -/
  sent : Nat
  /-- The commands that it has begun. -/
  command : Nat
  /-- The messages for it that it has not read, each with the command that it answers. -/
  unread : List (Nat × Message)
  /-- The commands that the messages answer that the present one has read. -/
  taken : List Nat

/-- The client after its handshake. -/
def Client.init : Client := ⟨0, 0, [], []⟩

/-- `send_message`. -/
def Client.send (w : Answering) (opId : UInt32) (payload : List UInt8) (c : Client) : Client :=
  { c with
    sent := c.sent + 1
    unread := c.unread ++ (w.answer c.sent opId payload).map fun m => (c.command, m) }

/-- `recv_message`. -/
def Client.receive (c : Client) : Option (Message × Client) :=
  match c.unread with
  | [] => none
  | (n, m) :: rest => some (m, { c with unread := rest, taken := c.taken ++ [n] })

/-- `request_text`: is it answered by `OP_OK`? -/
def requestText (w : Answering) (opId : UInt32) (payload : List UInt8) (c : Client) :
    Option (Bool × Client) := do
  let (m, c) ← (c.send w opId payload).receive
  some (decide (m.opId = opOk), c)

/-! ## Uploads -/

/-- What a `read` of the local file returns. -/
inductive FileRead where
  | interrupted
  | failed
  | bytes (data : List UInt8)

/-- The local file of an upload. -/
structure LocalFile where
  opens : Bool
  allocates : Bool
  /-- What the calls of `read` return before the end of the file. -/
  reads : List FileRead

/-- The loop of `upload_file` over the file: has it come to the end? -/
def uploadChunks (w : Answering) : List FileRead → Client → Option (Bool × Client)
  | [], c => some (true, c)
  | .interrupted :: rest, c => uploadChunks w rest c
  | .failed :: _, c => some (false, c)
  -- `read` has returned 0
  | .bytes [] :: _, c => some (true, c)
  | .bytes (b :: data) :: rest, c => do
      let (m, c) ← (c.send w opUploadChunk (b :: data)).receive
      if m.opId ≠ opOk then some (false, c) else uploadChunks w rest c

/-- `upload_file`. -/
def uploadFile (w : Answering) (path : List UInt8) (file : LocalFile) (c : Client) :
    Option (Bool × Client) :=
  if !file.opens then
    some (false, c)
  else do
    let (ok, c) ← requestText w opUploadBegin path c
    if !ok || !file.allocates then
      some (false, c)
    else
      let (ok, c) ← uploadChunks w file.reads c
      if !ok then some (false, c) else requestText w opUploadEnd [] c

/-! ## Downloads -/

/-- The local file of a download: can it be created, and which calls of `write_full`
succeed? -/
structure OutputFile where
  creates : Bool
  writes : Nat → Bool

/-- The loop of `download_sql_file` over the messages of the stream, after a number of
writes. -/
def receiveSql (file : OutputFile) : Bool → Nat → List (Nat × Message) → Client →
    Option (Bool × Client)
  | _, _, [], _ => none
  | sawBegin, written, (n, m) :: rest, c =>
      let c := { c with unread := rest, taken := c.taken ++ [n] }
      if m.opId = opDownloadBegin then
        receiveSql file true written rest c
      else if m.opId = opDownloadChunk then
        if !sawBegin then
          some (false, c)
        else if m.payload = [] then
          receiveSql file sawBegin written rest c
        else if file.writes written then
          receiveSql file sawBegin (written + 1) rest c
        else
          some (false, c)
      else
        -- the end of the file, an error, or a message that is not expected
        some (decide (m.opId = opDownloadEnd), c)

/-- `download_sql_file`: the request is sent before the file is created. -/
def downloadSqlFile (w : Answering) (file : OutputFile) (c : Client) : Option (Bool × Client) :=
  let c := c.send w opDownloadSql []
  if !file.creates then some (false, c) else receiveSql file false 0 c.unread c

/-! ## Commands -/

/-- A command with the local files that it works on. -/
inductive Command where
  | upload (path : List UInt8) (file : LocalFile)
  | generate
  | download (file : OutputFile)
  | status (jobId : List UInt8)
  | result (jobId : List UInt8)
  | insert (sql : List UInt8)
  /-- What `read_file` returns. -/
  | insertfile (sql : Option (List UInt8))

/-- The branch of the main loop for a command. -/
def Command.perform (w : Answering) (c : Client) : Command → Option (Bool × Client)
  | .upload path file => uploadFile w path file c
  | .generate => requestText w opGenerateSql [] c
  | .download file => downloadSqlFile w file c
  | .status jobId => requestText w opJobStatus jobId c
  | .result jobId => requestText w opJobResult jobId c
  | .insert sql => requestText w opValidateInsert sql c
  | .insertfile none => some (false, c)
  | .insertfile (some sql) => requestText w opValidateInsert sql c

/-- A command is begun and performed. -/
def Command.step (w : Answering) (c : Client) (command : Command) : Option Client :=
  (command.perform w { c with command := c.command + 1, taken := [] }).map Prod.snd

end SqlCodeGenerator
