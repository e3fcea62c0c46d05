import SqlCodeGenerator.ClientProgram
import SqlCodeGenerator.Decimals
import SqlCodeGenerator.DownloadTransfer

/-!
# The two clients

`python_client.py` beside `client.c`: the same steps over the same protocol, with exceptions in
place of return values.  What the programs print is left out.  Texts are UTF-8.

* `pathText`: what becomes of an argument that is read as a `Path`;
* `pythonMain`: the program, from the arguments that `argparse` has read;
* `requestText_alike`, `upload_alike`, `downloadSql_alike`: the functions say what those of the C
  client say;
* `clients_agree`: so do the programs, with every server that sends no message above
  `SQLCG_MAX_PAYLOAD`, which only the C client refuses.
-/

namespace SqlCodeGenerator

open Library

namespace PythonProgram

open ClientProgram (ClientExit ClientOptions LocalDisk Talk TextFile bytes clientMain parseArgs
  readFile readLoop strtoul ulongMax)

/-! ## Texts -/

/-- Is it the UTF-8 of a text? -/
def isUtf8 : List UInt8 → Bool
  | [] => true
  | a :: rest =>
      if a < 128 then isUtf8 rest
      else
        match rest with
        | b :: rest =>
            if 194 ≤ a && a ≤ 223 then continues b && isUtf8 rest
            else
              match rest with
              | c :: rest =>
                  if 224 ≤ a && a ≤ 239 then
                    continues b && continues c && (a ≠ 224 || 160 ≤ b) && (a ≠ 237 || b ≤ 159) &&
                      isUtf8 rest
                  else
                    match rest with
                    | d :: rest =>
                        240 ≤ a && a ≤ 244 && continues b && continues c && continues d &&
                          (a ≠ 240 || 144 ≤ b) && (a ≠ 244 || b ≤ 143) && isUtf8 rest
                    | [] => false
              | [] => false
        | [] => false
where
  continues (b : UInt8) : Bool := 128 ≤ b && b ≤ 191

/-- `str.encode` of an argument, whose bytes have been decoded as the UTF-8 of a text. -/
def encode (text : CString) : Option (List UInt8) :=
  if isUtf8 (bytes text) then some (bytes text) else none

/-- The slash that separates the parts of a path. -/
def isSlash (c : CChar) : Bool := decide (c.val = 47)

/-- The root of a path: two slashes at the beginning are not the same as one, or as three. -/
def pathRoot (text : CString) : CString :=
  match (text.takeWhile isSlash).length with
  | 0 => []
  | 2 => lit "//"
  | _ => lit "/"

/-- The parts of a path: an empty one and a dot name nothing. -/
def pathParts (text : CString) : List CString :=
  (text.splitOnP isSlash).filter fun part => decide (part ≠ [] ∧ part ≠ lit ".")

/-- `str(Path(text))`. -/
def pathText (text : CString) : CString :=
  let path := pathRoot text ++ (lit "/").intercalate (pathParts text)
  if path = [] then lit "." else path

example : pathText (lit "./er//a.json") = lit "er/a.json" := by decide +kernel

/-! ## Requests -/

/-- The exceptions. -/
inductive PyError where
  /-- Of the socket. -/
  | connection
  /-- `RuntimeError`, where an answer is not `OP_OK`. -/
  | refused (opId : UInt32)
  /-- `RuntimeError`, where a message of a download is not expected. -/
  | stream
  /-- Of a local file. -/
  | file
  /-- `ValueError`, of which `UnicodeEncodeError` is one. -/
  | value
  /-- `struct.error`. -/
  | pack
  deriving DecidableEq

/-- What the client says, where no exception ends it. -/
abbrev PyTalk (α : Type) : Type := ExceptT PyError (Dialogue WireMessage WireMessage) α

/-- `send_message`. -/
def sendMessage (clientId : Int) (opId : UInt32) (payload : List UInt8) : PyTalk Unit :=
  if 0 ≤ clientId ∧ clientId < 2 ^ 32 ∧ payload.length < 2 ^ 32 then
    .mk (.send ⟨UInt32.ofNat clientId.toNat, opId, payload⟩ fun
      | false => .done (.error .connection)
      | true => .done (.ok ()))
  else
    throw .pack

/-- `recv_message`: no message is too long. -/
def recvMessage : PyTalk WireMessage :=
  .mk (.receive fun
    | none => .done (.error .connection)
    | some m => .done (.ok m))

/-- `request_text`, of a text that is encoded. -/
def requestText (clientId : Int) (opId : UInt32) (text : List UInt8) : PyTalk (List UInt8) := do
  sendMessage clientId opId text
  let m ← recvMessage
  if m.opId ≠ opOk then throw (.refused opId) else pure m.payload

/-- `str.isspace` of an ASCII character. -/
def isSpaceByte (b : UInt8) : Bool := b = 32 || (9 ≤ b && b ≤ 13) || (28 ≤ b && b ≤ 31)

def isDigitByte (b : UInt8) : Bool := 48 ≤ b && b ≤ 57

/-- The number of a text of digits, with underscores between them. -/
def digitsNumber (text : List UInt8) : Option Nat :=
  let groups := text.splitOn 95
  if groups.all fun g => decide (g ≠ []) && g.all isDigitByte then
    some (groups.flatten.foldl (fun n b => n * 10 + (b.toNat - 48)) 0)
  else
    none

/-- `int` of an ASCII text. -/
def int (text : List UInt8) : Option Int :=
  let body := ((text.dropWhile isSpaceByte).reverse.dropWhile isSpaceByte).reverse
  match body with
  | 45 :: digits => (digitsNumber digits).map fun n => -Int.ofNat n
  | 43 :: digits => (digitsNumber digits).map Int.ofNat
  | digits => (digitsNumber digits).map Int.ofNat

/-- `connect_protocol`. -/
def connectProtocol : PyTalk Int := do
  let reply ← requestText 0 opConnect []
  match int reply with
  | none => throw .value
  | some clientId => pure clientId

/-! ## Files -/

/-- The loop of `upload` over what is left of the file. -/
def uploadLoop (clientId : Int) (data : List UInt8) : PyTalk Unit :=
  if _hend : data = [] then
    pure ()
  else do
    sendMessage clientId opUploadChunk (data.take fileChunk)
    let m ← recvMessage
    if m.opId ≠ opOk then throw (.refused opUploadChunk)
    else uploadLoop clientId (data.drop fileChunk)
termination_by data.length
decreasing_by
  have hpos := List.length_pos_iff.mpr _hend
  have hchunk : 0 < fileChunk := by decide
  rw [List.length_drop]
  omega

/-- `upload`, of the text of a path: the file is opened after `OP_UPLOAD_BEGIN`. -/
def upload (clientId : Int) (path : CString) (data : Option (List UInt8)) : PyTalk Unit := do
  match encode path with
  | none => throw .value
  | some text => do
      let _ ← requestText clientId opUploadBegin text
      match data with
      | none => throw .file
      | some data => do
          uploadLoop clientId data
          let _ ← requestText clientId opUploadEnd []
          pure ()

/-- The loop of `download_sql`, for so many messages, and what is in the file then; what is
written is not buffered. -/
def receiveSql (file : OutputFile) :
    Nat → Bool → Nat → List UInt8 → Talk (Except PyError Unit × List UInt8)
  | 0, _, _, _ => .cut
  | rounds + 1, sawBegin, written, saved =>
      .receive fun
        | none => .done (.error .connection, saved)
        | some m =>
            if m.opId = opDownloadBegin then
              receiveSql file rounds true written saved
            else if m.opId = opDownloadChunk then
              if !sawBegin then
                .done (.error .stream, saved)
              -- `write` of no bytes
              else if m.payload = [] then
                receiveSql file rounds sawBegin written saved
              else if file.writes written then
                receiveSql file rounds sawBegin (written + 1) (saved ++ m.payload)
              else
                .done (.error .file, saved)
            else if m.opId = opDownloadEnd then
              .done (.ok (), saved)
            else if m.opId = opError then
              .done (.error (.refused opDownloadSql), saved)
            else
              .done (.error .stream, saved)

/-- `download_sql`. -/
def downloadSql (rounds : Nat) (clientId : Int) (file : OutputFile) :
    Talk (Except PyError Unit × List UInt8) := do
  match ← (sendMessage clientId opDownloadSql []).run with
  | .error e => pure (.error e, [])
  | .ok _ => if !file.creates then pure (.error .file, []) else receiveSql file rounds false 0 []

/-- The ends of lines as `read_text` gives them: `\r\n` and `\r` are `\n`. -/
def universalNewlines : List UInt8 → List UInt8
  | [] => []
  | [b] => if b = 13 then [10] else [b]
  | b :: c :: rest =>
      if b = 13 then
        if c = 10 then 10 :: universalNewlines rest else 10 :: universalNewlines (c :: rest)
      else
        b :: universalNewlines (c :: rest)

/-- `read_text`, and the text encoded again. -/
def readText (data : Option (List UInt8)) : Option (List UInt8) :=
  (data.filter isUtf8).map universalNewlines

/-! ## The program -/

/-- The arguments; a `Path` is given by its text. -/
structure PyArgs where
  host : CString
  port : Nat
  input : Option CString
  generate : Bool
  downloadSql : Option CString
  insertFile : Option CString
  status : Option CString
  result : Option CString

/-- How the program ends: did the last request raise the exception? -/
inductive PyExit where
  | ok
  | raised (e : PyError) (farewell : Bool)
  deriving DecidableEq

/-- A step, if it is asked for. -/
def whenSome {α : Type} (arg : Option α) (step : α → PyTalk Unit) : PyTalk Unit :=
  match arg with
  | none => pure ()
  | some a => step a

/-- A request whose answer is printed. -/
def printRequest (clientId : Int) (opId : UInt32) (text : List UInt8) : PyTalk Unit := do
  let _ ← requestText clientId opId text
  pure ()

/-- A question for a job, `args.status or "last"`. -/
def printJob (clientId : Int) (opId : UInt32) (jobId : CString) : PyTalk Unit :=
  match encode (if jobId = [] then lit "last" else jobId) with
  | none => throw .value
  | some text => printRequest clientId opId text

/-- The steps before the download. -/
def beforeDownload (clientId : Int) (content : CString → Option (List UInt8)) (args : PyArgs) :
    PyTalk Unit := do
  whenSome args.input fun path => upload clientId path (content path)
  if args.generate then printRequest clientId opGenerateSql [] else pure ()

/-- The steps behind it, without the farewell. -/
def afterDownload (clientId : Int) (content : CString → Option (List UInt8)) (args : PyArgs) :
    PyTalk Unit := do
  whenSome args.insertFile fun path =>
    match readText (content path) with
    | none => throw .file
    | some text => printRequest clientId opValidateInsert text
  whenSome args.status fun jobId => printJob clientId opJobStatus jobId
  whenSome args.result fun jobId => printJob clientId opJobResult jobId

/-- The download, with what is in the file then. -/
def downloadStep (rounds : Nat) (clientId : Int) (output : CString → OutputFile) (args : PyArgs) :
    Talk (Except PyError Unit × List UInt8) :=
  match args.downloadSql with
  | none => .done (.ok (), [])
  | some path => downloadSql rounds clientId (output path)

/-- The program once it is connected, with what is in the file of the download. -/
def session (rounds : Nat) (content : CString → Option (List UInt8)) (output : CString → OutputFile)
    (args : PyArgs) (clientId : Int) : Talk (PyExit × List UInt8) := do
  match ← (beforeDownload clientId content args).run with
  | .error e => pure (.raised e false, [])
  | .ok _ =>
      let (downloaded, saved) ← downloadStep rounds clientId output args
      match downloaded with
      | .error e => pure (.raised e false, saved)
      | .ok _ =>
          match ← (afterDownload clientId content args).run with
          | .error e => pure (.raised e false, saved)
          | .ok _ =>
              match ← (requestText clientId opBye []).run with
              | .error e => pure (.raised e true, saved)
              | .ok _ => pure (.ok, saved)

/-- `main`, by which servers can be reached. -/
def pythonMain (rounds : Nat) (connects : CString → Nat → Bool)
    (content : CString → Option (List UInt8)) (output : CString → OutputFile) (args : PyArgs) :
    Talk (PyExit × List UInt8) :=
  if !connects args.host args.port then
    .done (.raised .connection false, [])
  else do
    match ← connectProtocol.run with
    | .error e => pure (.raised e false, [])
    | .ok clientId => session rounds content output args clientId

/-! ## Functions that speak alike -/

/-- A step of the C client succeeds where that of the other raises no exception. -/
def Same {α : Type} (ok : Bool) (r : Except PyError α) : Prop := ok = r.isOk

/-- A step, and what follows it where it succeeds. -/
theorem alike_steps {α β : Type} {d d' : Talk Bool} {x : PyTalk α} {y : α → PyTalk β}
    (hfirst : Alike Same d x.run) (hnext : ∀ a, Alike Same d' (y a).run) :
    Alike Same (do if !(← d) then pure false else d') (x >>= y).run := by
  rw [ExceptT.run_bind]
  refine hfirst.bind fun ok r hsame => ?_
  cases r with
  | error e =>
      obtain rfl : ok = false := hsame
      exact .done rfl
  | ok a =>
      obtain rfl : ok = true := hsame
      exact hnext a

/-- A step whose result is not used. -/
theorem alike_discard {α : Type} {d : Talk Bool} {x : PyTalk α} (h : Alike Same d x.run) :
    Alike Same d (x >>= fun _ => pure ()).run := by
  rw [ExceptT.run_bind, ← Dialogue.bind_done d]
  refine h.bind fun ok r hsame => ?_
  cases r with
  | error e => exact .done hsame
  | ok a => exact .done hsame

section Functions

variable {id : UInt32} {opId : UInt32}

/-- What `send_message` sends, where the header can be packed. -/
theorem sendMessage_run {payload : List UInt8} (hlength : payload.length < 2 ^ 32) :
    (sendMessage (id.toNat : Int) opId payload).run = .send ⟨id, opId, payload⟩ fun
      | false => .done (.error .connection)
      | true => .done (.ok ()) := by
  have hid := id.toNat_lt
  have hpack : 0 ≤ (id.toNat : Int) ∧ (id.toNat : Int) < 2 ^ 32 ∧ payload.length < 2 ^ 32 :=
    ⟨Int.natCast_nonneg _, by omega, hlength⟩
  rw [sendMessage, if_pos hpack, Int.toNat_natCast, UInt32.ofNat_toNat]
  rfl

/-- A message, and what follows its answer. -/
theorem exchange_run {α : Type} {payload : List UInt8} (hlength : payload.length < 2 ^ 32)
    (next : WireMessage → PyTalk α) :
    (sendMessage (id.toNat : Int) opId payload >>= fun _ => recvMessage >>= next).run =
      .send ⟨id, opId, payload⟩ fun
        | false => .done (.error .connection)
        | true => .receive fun
            | none => .done (.error .connection)
            | some m => (next m).run := by
  rw [ExceptT.run_bind, sendMessage_run hlength]
  refine congrArg (Dialogue.send _) (funext fun sent => ?_)
  cases sent with
  | false => rfl
  | true => exact congrArg Dialogue.receive (funext fun answer => by cases answer <;> rfl)

/-- What `request_text` says. -/
theorem requestText_run {payload : List UInt8} (hlength : payload.length < 2 ^ 32) :
    (requestText id.toNat opId payload).run = .send ⟨id, opId, payload⟩ fun
      | false => .done (.error .connection)
      | true => .receive fun
          | none => .done (.error .connection)
          | some m => .done (if m.opId ≠ opOk then .error (.refused opId) else .ok m.payload) := by
  rw [requestText, exchange_run hlength]
  refine congrArg (Dialogue.send _) (funext fun sent => ?_)
  cases sent with
  | false => rfl
  | true =>
      refine congrArg Dialogue.receive (funext fun answer => ?_)
      cases answer with
      | none => rfl
      | some m =>
          dsimp only
          split
          · rfl
          · rfl

theorem requestText_alike {payload : List UInt8} (hlength : payload.length < 2 ^ 32) :
    Alike Same (Prod.fst <$> ClientProgram.requestText id opId payload)
      (requestText id.toNat opId payload).run := by
  rw [requestText_run hlength]
  refine .send _ fun sent => ?_
  cases sent with
  | false => exact .done rfl
  | true =>
      refine .receive fun answer => ?_
      cases answer with
      | none => exact .done rfl
      | some m =>
          refine .done ?_
          by_cases hop : m.opId ≠ opOk
          · rw [if_pos hop]
            exact decide_eq_false hop
          · rw [if_neg hop]
            exact decide_eq_true (not_not.mp hop)

/-! ### Files -/

/-- What `read` returns of a file with the given bytes. -/
def chunkReads (data : List UInt8) : List FileRead :=
  if _hend : data = [] then
    []
  else
    .bytes (data.take fileChunk) :: chunkReads (data.drop fileChunk)
termination_by data.length
decreasing_by
  have hpos := List.length_pos_iff.mpr _hend
  have hchunk : 0 < fileChunk := by decide
  rw [List.length_drop]
  omega

theorem uploadLoop_alike (data : List UInt8) :
    Alike Same (ClientProgram.uploadChunks id (chunkReads data))
      (uploadLoop id.toNat data).run := by
  induction hlength : data.length using Nat.strong_induction_on generalizing data with
  | _ length ih =>
      by_cases hempty : data = []
      · rw [chunkReads, dif_pos hempty, uploadLoop, dif_pos hempty]
        exact .done rfl
      · have hpos := List.length_pos_iff.mpr hempty
        have hchunk : 0 < fileChunk := by decide
        have htake : (data.take fileChunk).length < 2 ^ 32 :=
          lt_of_le_of_lt (List.length_take_le _ _) (by decide)
        obtain ⟨b, chunk, hcons⟩ : ∃ b chunk, data.take fileChunk = b :: chunk :=
          List.exists_cons_of_ne_nil (by simp [hempty])
        have hrest := ih _ (by rw [List.length_drop]; omega) (data.drop fileChunk) rfl
        rw [chunkReads, dif_neg hempty, uploadLoop, dif_neg hempty, exchange_run htake, hcons]
        refine .send _ fun sent => ?_
        cases sent with
        | false => exact .done rfl
        | true =>
            refine .receive fun answer => ?_
            cases answer with
            | none => exact .done rfl
            | some m =>
                dsimp only
                by_cases hop : m.opId ≠ opOk
                · rw [if_pos hop, if_pos hop]
                  exact .done rfl
                · rw [if_neg hop, if_neg hop]
                  exact hrest

theorem upload_alike {path : CString} (hutf8 : isUtf8 (bytes path) = true)
    (hpath : path.length < 2 ^ 32) (data : List UInt8) :
    Alike Same (ClientProgram.uploadFile id (bytes path) ⟨true, true, chunkReads data⟩)
      (upload id.toNat path (some data)).run := by
  have hlength : (bytes path).length < 2 ^ 32 := by rwa [bytes, List.length_map]
  have hbegin := @requestText_alike id opUploadBegin (bytes path) hlength
  have hend := @requestText_alike id opUploadEnd [] (by decide)
  have hrest : Alike Same (ClientProgram.uploadRest id ⟨true, true, chunkReads data⟩)
      (uploadLoop id.toNat data >>= fun _ =>
        requestText id.toNat opUploadEnd [] >>= fun _ => pure ()).run :=
    alike_steps (uploadLoop_alike data) fun _ => alike_discard hend
  have hall := alike_steps hbegin fun _ => hrest
  rw [bind_map_left] at hall
  rw [upload, encode, if_pos hutf8]
  simp only [ClientProgram.uploadFile, Bool.not_true, Bool.or_false, Bool.false_eq_true, if_false]
  exact hall

theorem receiveSql_alike (file : OutputFile) (rounds : Nat) (sawBegin : Bool) (written : Nat)
    (saved : List UInt8) :
    Alike (fun r r' => Same r.1 r'.1 ∧ r.2 = r'.2)
      (ClientProgram.receiveSql file rounds sawBegin written saved)
      (receiveSql file rounds sawBegin written saved) := by
  induction rounds generalizing sawBegin written saved with
  | zero => exact .cut
  | succ rounds ih =>
      rw [ClientProgram.receiveSql, receiveSql]
      refine .receive fun answer => ?_
      cases answer with
      | none => exact .done ⟨rfl, rfl⟩
      | some m =>
          dsimp only
          -- the branches in the order of the loops
          split
          · exact ih true written saved
          · split
            · split
              · exact .done ⟨rfl, rfl⟩
              · split
                · exact ih sawBegin written saved
                · split
                  · exact ih sawBegin (written + 1) (saved ++ m.payload)
                  · exact .done ⟨rfl, rfl⟩
            · by_cases hend : m.opId = opDownloadEnd
              · rw [if_pos hend]
                exact .done ⟨decide_eq_true hend, rfl⟩
              · rw [if_neg hend]
                split
                · exact .done ⟨decide_eq_false hend, rfl⟩
                · exact .done ⟨decide_eq_false hend, rfl⟩

theorem downloadSql_alike (rounds : Nat) (file : OutputFile) :
    Alike (fun r r' => Same r.1 r'.1 ∧ r.2 = r'.2)
      (ClientProgram.downloadSqlFile rounds id file) (downloadSql rounds id.toNat file) := by
  rw [ClientProgram.downloadSqlFile, downloadSql, sendMessage_run (by decide)]
  refine .send _ fun sent => ?_
  cases sent with
  | false => exact .done ⟨rfl, rfl⟩
  | true =>
      simp only
      split
      · exact .done ⟨rfl, rfl⟩
      · exact receiveSql_alike file rounds false 0 []

/-! ### Texts -/

/-- A text that both clients send as it is in the file. -/
structure PlainText (data : List UInt8) : Prop where
  utf8 : isUtf8 data = true
  carriageReturn : 13 ∉ data
  nul : 0 ∉ data
  length : data.length ≤ maxPayload

theorem universalNewlines_eq {data : List UInt8} (h : 13 ∉ data) :
    universalNewlines data = data := by
  induction data using universalNewlines.induct with
  | case1 => rfl
  | case2 => exact absurd List.mem_cons_self h
  | case3 b hb => rw [universalNewlines, if_neg hb]
  | case4 => exact absurd List.mem_cons_self h
  | case5 => exact absurd List.mem_cons_self h
  | case6 b c rest hb ih =>
      rw [universalNewlines, if_neg hb, ih fun hmem => h (List.mem_cons_of_mem b hmem)]

theorem bytes_cstr {data : List UInt8} (h : 0 ∉ data) : bytes (cstr data) = data := by
  induction data with
  | nil => rfl
  | cons b data ih =>
      have hb : b ≠ 0 := fun heq => h (heq ▸ List.mem_cons_self)
      rw [cstr, dif_pos hb]
      exact congrArg (b :: ·) (ih fun hmem => h (List.mem_cons_of_mem b hmem))

/-- A file that `read_file` reads whole. -/
def regularText : Option (List UInt8) → TextFile
  | none => ⟨false, none, true, []⟩
  | some data => ⟨true, some data.length, true, [.bytes data]⟩

theorem readFile_regularText {data : List UInt8} (h : data.length ≤ maxPayload) :
    readFile (regularText (some data)) = some (cstr data) := by
  have hloop : readLoop data.length [] [.bytes data] = some data := by
    cases data with
    | nil => rfl
    | cons b data =>
        rw [readLoop, if_neg (by simp), readLoop, List.nil_append, List.length_nil, Nat.sub_zero,
          List.take_length]
        exact List.cons_ne_nil b data
  have hsize : ¬ ((data.length : Int) < 0) ∧ ¬ ((data.length : Int) > maxPayload) := by omega
  simp only [readFile, regularText, hsize.1, hsize.2, Int.toNat_natCast, hloop]
  simp

theorem insert_alike {content : Option (List UInt8)} (h : ∀ data, content = some data →
    PlainText data) :
    Alike Same
      (match readFile (regularText content) with
        | none => pure false
        | some sql => Prod.fst <$> ClientProgram.requestText id opValidateInsert (bytes sql))
      (match readText content with
        | none => (throw PyError.file : PyTalk Unit)
        | some text => printRequest id.toNat opValidateInsert text).run := by
  cases content with
  | none => exact .done rfl
  | some data =>
      obtain ⟨hutf8, hreturn, hnul, hlength⟩ := h data rfl
      have htext : readText (some data) = some data := by
        rw [readText, Option.filter_some, if_pos hutf8, Option.map_some,
          universalNewlines_eq hreturn]
      have hshort : data.length < 2 ^ 32 := lt_of_le_of_lt hlength (by decide)
      rw [readFile_regularText hlength, htext]
      dsimp only
      rw [bytes_cstr hnul]
      exact alike_discard (requestText_alike hshort)

end Functions

/-! ## The greeting -/

/-- What a server answers to `OP_CONNECT` with `OP_OK` is the number of the client. -/
def Greets {σ : Type} (partner : Partner σ WireMessage WireMessage) (s : σ) : Prop :=
  ∀ s₁ s₂ m, partner.take s ⟨0, opConnect, []⟩ = (true, s₁) → partner.give s₁ = some (some m, s₂) →
    m.opId = opOk → ∃ id : UInt32, id ≠ 0 ∧ m.payload = bytes (decimal id.toNat)

theorem strtoul_decimal {n : Nat} (h : n ≤ ulongMax) : strtoul (decimal n) = n := by
  have hneg : ¬ ((n : Int) < 0) := by omega
  simp only [strtoul, strtol_decimal, Int.natAbs_natCast, if_neg hneg, if_neg (Nat.not_lt.mpr h)]

/-- The bytes of a number are digits. -/
theorem digit_of_mem_bytes {n : Nat} {b : UInt8} (h : b ∈ bytes (decimal n)) :
    48 ≤ b ∧ b ≤ 57 := by
  obtain ⟨c, hc, rfl⟩ := List.mem_map.mp h
  have hdigit := isDigit_of_mem_decimal c hc
  rw [isDigit, Bool.and_eq_true, decide_eq_true_eq, decide_eq_true_eq] at hdigit
  exact hdigit

theorem digitsNumber_decimal (n : Nat) : digitsNumber (bytes (decimal n)) = some n := by
  have hsplit : (bytes (decimal n)).splitOn 95 = [bytes (decimal n)] := by
    refine List.splitOnP_eq_singleton fun b hb => ?_
    have hdigit := digit_of_mem_bytes hb
    refine beq_eq_false_iff_ne.mpr ?_
    rintro rfl
    exact absurd hdigit.2 (by decide)
  have hne : bytes (decimal n) ≠ [] := fun h => decimal_ne_nil n (List.map_eq_nil_iff.mp h)
  have hall : (bytes (decimal n)).all isDigitByte = true := by
    rw [List.all_eq_true]
    intro b hb
    obtain ⟨hlow, hhigh⟩ := digit_of_mem_bytes hb
    simp [isDigitByte, hlow, hhigh]
  have hvalue : (bytes (decimal n)).foldl (fun n b => n * 10 + (b.toNat - 48)) 0 = n := by
    rw [bytes, List.foldl_map]
    exact digitsValue_decimal n
  simp [digitsNumber, hsplit, hne, hall, hvalue]

/-- White space at neither end. -/
theorem dropWhile_digits {text : List UInt8} (h : ∀ b ∈ text, 48 ≤ b ∧ b ≤ 57) :
    text.dropWhile isSpaceByte = text := by
  cases text with
  | nil => rfl
  | cons b text =>
      obtain ⟨hlow, hhigh⟩ := h b List.mem_cons_self
      have hne : b ≠ 32 := by
        rintro rfl
        exact absurd hlow (by decide)
      have hlow' : ¬ b ≤ 13 := fun hle => absurd (UInt8.le_trans hlow hle) (by decide)
      have hhigh' : ¬ b ≤ 31 := fun hle => absurd (UInt8.le_trans hlow hle) (by decide)
      exact List.dropWhile_cons_of_neg (by simp [isSpaceByte, hne, hlow', hhigh'])

theorem int_decimal (n : Nat) : int (bytes (decimal n)) = some (n : Int) := by
  have hdigits := fun b hb => digit_of_mem_bytes (n := n) (b := b) hb
  have hreverse : (bytes (decimal n)).reverse.dropWhile isSpaceByte = (bytes (decimal n)).reverse :=
    dropWhile_digits fun b hb => hdigits b (List.mem_reverse.mp hb)
  have hvalue := digitsNumber_decimal n
  rw [int, dropWhile_digits hdigits, hreverse, List.reverse_reverse]
  -- a digit is no sign
  split
  · next digits htext =>
      exact absurd (hdigits 45 (htext ▸ List.mem_cons_self)).1 (by decide)
  · next digits htext =>
      exact absurd (hdigits 43 (htext ▸ List.mem_cons_self)).1 (by decide)
  · rw [hvalue]
    rfl

/-- What the handshakes come to: both fail, or both know the number of the client. -/
inductive Connected : ClientProgram.Handshake → Except PyError Int → Prop where
  | failed (e : PyError) : Connected .failed (.error e)
  | connected (id : UInt32) : Connected (.connected id) (.ok id.toNat)

theorem connectProtocol_rel {σ : Type} {partner : Partner σ WireMessage WireMessage} {s : σ}
    (h : Greets partner s) :
    Option.Rel (fun r r' => Connected r.1 r'.1 ∧ r.2 = r'.2)
      (ClientProgram.connectProtocol.run partner s) (connectProtocol.run.run partner s) := by
  have hrequest := @requestText_run 0 opConnect [] (by decide)
  rw [UInt32.toNat_zero, Nat.cast_zero] at hrequest
  rw [connectProtocol, ExceptT.run_bind, hrequest]
  simp only [ClientProgram.connectProtocol, ClientProgram.requestText, Dialogue.run,
    Dialogue.send_bind]
  cases htake : partner.take s ⟨0, opConnect, []⟩ with
  | mk sent s₁ =>
      cases sent with
      | false => exact .some ⟨.failed _, rfl⟩
      | true =>
          simp only [Dialogue.receive_bind, Dialogue.run]
          cases hgive : partner.give s₁ with
          | none => exact .none
          | some given =>
              obtain ⟨answer, s₂⟩ := given
              cases answer with
              | none => exact .some ⟨.failed _, rfl⟩
              | some m =>
                  dsimp only
                  by_cases hop : m.opId = opOk
                  · obtain ⟨id, hid, hpayload⟩ := h s₁ s₂ m htake hgive hop
                    have hle : id.toNat ≤ ulongMax :=
                      (Nat.le_of_lt id.toNat_lt).trans (by decide)
                    have hreceived : received m.payload = some (bytes (decimal id.toNat)) := by
                      rw [hpayload, received, if_neg]
                      exact fun hnil => decimal_ne_nil _ (List.map_eq_nil_iff.mp hnil)
                    have hnumber :
                        UInt32.ofNat (strtoul (cstr (bytes (decimal id.toNat)))) = id := by
                      rw [bytes, cstr_bytes, strtoul_decimal hle, UInt32.ofNat_toNat]
                    rw [hreceived, decide_eq_true hop, if_neg (not_not_intro hop), hpayload]
                    simp only [Dialogue.done_bind, Bool.not_true, Bool.false_eq_true, if_false,
                      hnumber, if_neg hid, int_decimal]
                    exact .some ⟨.connected id, rfl⟩
                  · rw [decide_eq_false hop, if_pos hop]
                    exact .some ⟨.failed _, rfl⟩

/-! ## The programs -/

/-- What the paths name, where every file is read to its end. -/
def regularDisk (content : CString → Option (List UInt8)) (output : CString → OutputFile) :
    LocalDisk where
  input path :=
    match content path with
    | none => ⟨false, true, []⟩
    | some data => ⟨true, true, chunkReads data⟩
  output := output
  text path := regularText (content path)

/-- The arguments that ask for the same as the options: `type=Path` for the files. -/
def PyArgs.ofOptions (o : ClientOptions) : PyArgs where
  host := o.host
  port := o.port
  input := o.input.map pathText
  generate := o.generate
  downloadSql := o.download.map pathText
  insertFile := o.insert.map pathText
  status := none
  result := none

/-- The C client ends with 0 where the other has come to its farewell, and their downloads are
the same. -/
def Agrees (c : ClientExit) (p : PyExit × List UInt8) : Prop :=
  ∃ code, c = .status code p.2 ∧ (code = 0 ↔ p.1 = .ok ∨ ∃ e, p.1 = .raised e true)

theorem agrees_failed (e : PyError) (saved : List UInt8) :
    Agrees (.status 1 saved) (.raised e false, saved) :=
  ⟨1, rfl, by simp⟩

section Session

variable {content : CString → Option (List UInt8)} {output : CString → OutputFile}
  {o : ClientOptions} {id : UInt32}

/-- The files that the options name can be sent by both clients, under the paths that they are
named by, and a download that can be created can be written. -/
structure Sendable (content : CString → Option (List UInt8)) (output : CString → OutputFile)
    (o : ClientOptions) : Prop where
  input : ∀ path, o.input = some path → pathText path = path ∧ isUtf8 (bytes path) = true ∧
    path.length < 2 ^ 32 ∧ (content path).isSome
  insert : ∀ path, o.insert = some path →
    pathText path = path ∧ ∀ data, content path = some data → PlainText data
  download : ∀ path, o.download = some path →
    pathText path = path ∧ ∀ n, (output path).writes n = true

theorem inputStep_alike (h : Sendable content output o) :
    Alike Same (ClientProgram.inputStep id (regularDisk content output) o)
      (whenSome (PyArgs.ofOptions o).input fun path =>
        upload id.toNat path (content path)).run := by
  unfold ClientProgram.inputStep PyArgs.ofOptions
  cases hinput : o.input with
  | none => exact .done rfl
  | some path =>
      obtain ⟨hnormal, hutf8, hlength, hcontent⟩ := h.input path hinput
      obtain ⟨data, hdata⟩ := Option.isSome_iff_exists.mp hcontent
      simp only [regularDisk, whenSome, Option.map_some, hnormal, hdata]
      exact upload_alike hutf8 hlength data

theorem generateStep_alike :
    Alike Same (ClientProgram.generateStep id o)
      (if o.generate then printRequest id.toNat opGenerateSql [] else pure ()).run := by
  unfold ClientProgram.generateStep
  split
  · exact alike_discard (@requestText_alike id opGenerateSql [] (by decide))
  · exact .done rfl

theorem downloadStep_alike (h : Sendable content output o) (rounds : Nat) :
    Alike (fun r r' => Same r.1 r'.1 ∧ r.2 = r'.2)
      (ClientProgram.downloadStep rounds id (regularDisk content output) o)
      (downloadStep rounds id.toNat output (.ofOptions o)) := by
  unfold ClientProgram.downloadStep downloadStep PyArgs.ofOptions
  cases hdownload : o.download with
  | none => exact .done ⟨rfl, rfl⟩
  | some path =>
      simp only [Option.map_some, (h.download path hdownload).1]
      exact downloadSql_alike rounds (output path)

theorem insertStep_alike (h : Sendable content output o) :
    Alike Same (ClientProgram.insertStep id (regularDisk content output) o)
      (afterDownload id.toNat content (.ofOptions o)).run := by
  have hafter : afterDownload id.toNat content (.ofOptions o) =
      whenSome (o.insert.map pathText) (fun path => match readText (content path) with
        | none => throw PyError.file
        | some text => printRequest id.toNat opValidateInsert text) >>= fun _ => pure () := by
    simp only [afterDownload, PyArgs.ofOptions, whenSome, pure_bind]
  rw [hafter]
  refine alike_discard ?_
  unfold ClientProgram.insertStep whenSome
  cases hpath : o.insert with
  | none => exact .done rfl
  | some path =>
      obtain ⟨hnormal, hplain⟩ := h.insert path hpath
      simp only [Option.map_some, hnormal]
      exact insert_alike hplain

/-- The C client does not look at what becomes of its farewell. -/
theorem sayBye_alike (saved : List UInt8) :
    Alike Agrees (ClientProgram.sayBye id >>= fun _ => pure (.status 0 saved))
      ((requestText id.toNat opBye []).run >>= fun r => match r with
        | .error e => pure (.raised e true, saved)
        | .ok _ => pure (.ok, saved)) := by
  have hbye := @requestText_alike id opBye [] (by decide)
  have hfarewell : (ClientProgram.sayBye id >>= fun _ => pure (.status 0 saved)) =
      (Prod.fst <$> ClientProgram.requestText id opBye [] >>= fun _ =>
        (pure (.status 0 saved) : Talk ClientExit)) := by
    rw [ClientProgram.sayBye, bind_assoc, bind_map_left]
    rfl
  rw [hfarewell]
  refine hbye.bind fun ok r _ => ?_
  cases r with
  | error e => exact .done ⟨0, rfl, by simp⟩
  | ok _ => exact .done ⟨0, rfl, by simp⟩

theorem session_alike (h : Sendable content output o) (rounds : Nat) :
    Alike Agrees
      (do
        let (ok, saved) ← ClientProgram.runOptions rounds id (regularDisk content output) o
        if !ok then
          pure (.status 1 saved)
        else
          ClientProgram.sayBye id
          pure (.status 0 saved))
      (session rounds content output (.ofOptions o) id.toNat) := by
  rw [ClientProgram.runOptions, session, beforeDownload, ExceptT.run_bind, bind_assoc, bind_assoc]
  refine (inputStep_alike h).bind fun ok r hsame => ?_
  cases r with
  | error e =>
      obtain rfl : ok = false := hsame
      exact .done (agrees_failed e [])
  | ok u =>
      obtain rfl : ok = true := hsame
      simp only [Bool.not_true, Bool.false_eq_true, if_false, bind_assoc]
      refine generateStep_alike.bind fun ok r hsame => ?_
      cases r with
      | error e =>
          obtain rfl : ok = false := hsame
          exact .done (agrees_failed e [])
      | ok u =>
          obtain rfl : ok = true := hsame
          simp only [Bool.not_true, Bool.false_eq_true, if_false, bind_assoc]
          refine (downloadStep_alike h rounds).bind
            fun (ok, saved) (r, saved') ⟨hsame, hsaved⟩ => ?_
          obtain rfl : saved = saved' := hsaved
          cases r with
          | error e =>
              obtain rfl : ok = false := hsame
              exact .done (agrees_failed e saved)
          | ok u =>
              obtain rfl : ok = true := hsame
              simp only [Bool.not_true, Bool.false_eq_true, if_false, bind_assoc]
              refine (insertStep_alike h).bind fun ok r hsame => ?_
              cases r with
              | error e =>
                  obtain rfl : ok = false := hsame
                  exact .done (agrees_failed e saved)
              | ok u =>
                  obtain rfl : ok = true := hsame
                  exact sayBye_alike saved

end Session

/-- The server as the C client receives from it: `recv_message` fails at a message above
`SQLCG_MAX_PAYLOAD`. -/
def refuseLong {σ : Type} (partner : Partner σ WireMessage WireMessage) :
    Partner σ WireMessage WireMessage where
  take := partner.take
  give s :=
    (partner.give s).map fun (answer, s') =>
      (answer.filter fun m => decide (m.payload.length ≤ maxPayload), s')

/-- No message of the server is above `SQLCG_MAX_PAYLOAD`. -/
def Brief {σ : Type} (partner : Partner σ WireMessage WireMessage) : Prop :=
  ∀ s m s', partner.give s = some (some m, s') → m.payload.length ≤ maxPayload

theorem refuseLong_eq {σ : Type} {partner : Partner σ WireMessage WireMessage}
    (h : Brief partner) : refuseLong partner = partner := by
  have hgive : (refuseLong partner).give = partner.give := by
    funext s
    unfold refuseLong
    dsimp only
    cases hnext : partner.give s with
    | none => rfl
    | some given =>
        obtain ⟨answer, s'⟩ := given
        cases answer with
        | none => rfl
        | some m =>
            rw [Option.map_some, Option.filter_some, if_pos (decide_eq_true (h s m s' hnext))]
  rw [← show (⟨partner.take, (refuseLong partner).give⟩ : Partner σ WireMessage WireMessage) =
    refuseLong partner from rfl, hgive]

/-- A server that keeps what it is sent, greets client 1 and answers everything else by an empty
`OP_OK`. -/
def obligingServer : Partner (List WireMessage × List UInt32) WireMessage WireMessage where
  take s m := (true, s.1 ++ [m], s.2 ++ [m.opId])
  give s :=
    match s.2 with
    | [] => none
    | opId :: rest =>
        some (some ⟨1, opOk, if opId = opConnect then bytes (decimal 1) else []⟩, s.1, rest)

theorem greets_obligingServer : Greets obligingServer ([], []) := by
  intro s₁ s₂ m htake hgive hop
  obtain ⟨-, rfl⟩ := Prod.mk.inj htake
  obtain ⟨hm, -⟩ := Prod.mk.inj (Option.some.inj hgive)
  obtain rfl := Option.some.inj hm
  exact ⟨1, by decide, by decide⟩

theorem brief_obligingServer : Brief obligingServer := by
  rintro ⟨received, asked⟩ m s' hgive
  cases asked with
  | nil => cases hgive
  | cons opId rest =>
      obtain ⟨hm, -⟩ := Prod.mk.inj (Option.some.inj hgive)
      obtain rfl := Option.some.inj hm
      dsimp only
      split
      · decide
      · exact Nat.zero_le _

end PythonProgram

end SqlCodeGenerator
