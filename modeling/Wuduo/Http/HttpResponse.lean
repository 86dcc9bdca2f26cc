import Wuduo.Buffer
import Wuduo.Http.HttpRequest

/-!
# `wuduo::http::HttpResponse`

The model of `http_response.cpp`: the status line and the headers of a reply, and
`analyse`, which answers a request with the file its path names.

What lies outside the code is an argument.  A `FileAnswer` is what `::open`,
`::fstat` and the reads of one file answer; an `Iteration` is the order in which
the range-based `for` over the header map goes through it, which the map leaves
open.  The header map itself is the list of its entries.

The two texts that `snprintf` writes into a buffer of 32 bytes (`scratchTexts`) are
given as they are when they fit, as they do for a body of less than `10 ^ 13` bytes.
-/

namespace Wuduo.Http

open Search

/-- `MimeType::kDefault` -/
def MimeType.kDefault : Bytes := bytes "text/html;charset=utf-8"

/-- `MimeType::types_` -/
def MimeType.types : List (Bytes × Bytes) := [
  (bytes ".html", MimeType.kDefault),
  (bytes ".avi", bytes "video/x-msvideo"),
  (bytes ".bmp", bytes "image/bmp"),
  (bytes ".c", bytes "text/plain"),
  (bytes ".doc", bytes "application/msword"),
  (bytes ".gif", bytes "image/gif"),
  (bytes ".gz", bytes "application/x-gzip"),
  (bytes ".htm", bytes "text/html"),
  (bytes ".ico", bytes "image/x-icon"),
  (bytes ".jpg", bytes "image/jpeg"),
  (bytes ".png", bytes "image/png"),
  (bytes ".txt", bytes "text/plain"),
  (bytes ".mp3", bytes "audio/mp3"),
  (bytes ".mp4", bytes "video/mp4"),
  (bytes "default", MimeType.kDefault)]

/-- `MimeType::from` -/
def MimeType.fromSuffix (suffix : Bytes) : Bytes :=
  (MimeType.types.lookup suffix).getD ((MimeType.types.lookup (bytes "default")).getD [])

inductive StatusCode where
  | k200Ok
  | k301MovedPermanently
  | k400BadRequest
  | k404NotFound
  | k505HttpVersionNotSupported
deriving DecidableEq, Repr

namespace StatusCode

def toNat : StatusCode → Nat
  | .k200Ok => 200
  | .k301MovedPermanently => 301
  | .k400BadRequest => 400
  | .k404NotFound => 404
  | .k505HttpVersionNotSupported => 505

/-- `to_string`, misspelling included. -/
def phrase : StatusCode → Bytes
  | .k200Ok => bytes "OK"
  | .k301MovedPermanently => bytes "Moved Permanentyly"
  | .k400BadRequest => bytes "Bad Request"
  | .k404NotFound => bytes "Not Found"
  | .k505HttpVersionNotSupported => bytes "HTTP Version Not Supported"

end StatusCode

/-- An order in which to go through a map. -/
structure Iteration where
  order : List (Bytes × Bytes) → List (Bytes × Bytes)
  perm : ∀ entries, (order entries).Perm entries

theorem Iteration.perm_id (entries : List (Bytes × Bytes)) : (id entries).Perm entries :=
  List.Perm.refl entries

/-- The order of the list. -/
def Iteration.listed : Iteration := ⟨id, Iteration.perm_id⟩

/-- The path `analyse` passes to `::open`. -/
def openedPath (request : HttpRequest) : Bytes := cString request.path

/-- What the system answers when a file is to be read. -/
inductive FileAnswer where
  /-- `::open` fails -/
  | notOpened
  /-- `::fstat` fails -/
  | noMetadata
  /-- the size `::fstat` reports, and the answers of the reads in turn -/
  | opened (size : Nat) (reads : List ReadResult)
deriving DecidableEq, Repr

/-- The calls `analyse` makes with the descriptor of a file. -/
inductive FileCall where
  | opened
  | closed
deriving DecidableEq, Repr

/-- `HttpResponse`, less the buffer for messages, which nothing writes. -/
structure HttpResponse where
  headers : List (Bytes × Bytes)
  statusCode : StatusCode
  phrase : Bytes
  entityBody : Buffer
  closeConnection : Bool

namespace HttpResponse

/-- `headers_[key] = value` -/
def assign (key value : Bytes) : List (Bytes × Bytes) → List (Bytes × Bytes)
  | [] => [(key, value)]
  | (k, v) :: entries =>
      if k = key then (k, value) :: entries else (k, v) :: assign key value entries

def addHeader (r : HttpResponse) (key value : Bytes) : HttpResponse :=
  { r with headers := assign key value r.headers }

def setPhrase (r : HttpResponse) (phrase : Bytes) : HttpResponse := { r with phrase }

def setStatusCode (r : HttpResponse) (code : StatusCode) : HttpResponse :=
  { r.setPhrase code.phrase with statusCode := code }

def setContentType (r : HttpResponse) (contentType : Bytes) : HttpResponse :=
  r.addHeader (bytes "Content-Type") contentType

def setCloseConnection (r : HttpResponse) (closeConnection : Bool) : HttpResponse :=
  let value := if closeConnection then bytes "close" else bytes "keep-alive"
  { r.addHeader (bytes "Connection") value with closeConnection }

def setEntityBody (r : HttpResponse) (body : Bytes) : Except NoReturn HttpResponse := do
  return { r with entityBody := ← r.entityBody.append body }

/-- The constructor. -/
def new (closeConnection : Bool) : HttpResponse :=
  let r : HttpResponse := {
    headers := []
    statusCode := .k404NotFound
    phrase := bytes "Not Found"
    entityBody := Buffer.ofSize kInitialSize
    closeConnection }
  (r.setCloseConnection closeConnection).setContentType MimeType.kDefault

/-- Appends one text after the other. -/
def appendAll (output : Buffer) : List Bytes → Except NoReturn Buffer
  | [] => .ok output
  | text :: texts => do appendAll (← output.append text) texts

/-- The size of `buf`, into which `snprintf` writes. -/
def kScratch : Nat := 32

/-- The beginning of the status line, as `snprintf` is to write it. -/
def statusText (r : HttpResponse) : Bytes :=
  bytes "HTTP/1.1 " ++ decimal r.statusCode.toNat ++ bytes " "

/-- The line for the size of the body, as `snprintf` is to write it. -/
def lengthText (r : HttpResponse) : Bytes :=
  bytes "Content-Length: " ++ decimal r.entityBody.readableBytes ++ crlf

/-- The texts that have to fit into `buf`. -/
def scratchTexts (r : HttpResponse) : List Bytes := [r.statusText, r.lengthText]

/-- `append_status_line_and_headers_to` -/
def appendStatusLineAndHeadersTo (r : HttpResponse) (it : Iteration) (output : Buffer) :
    Except NoReturn Buffer := do
  let output ← appendAll output [r.statusText, r.phrase, crlf]
  let output ← output.append r.lengthText
  let output ← appendAll output
    ((it.order r.headers).flatMap fun (k, v) ↦ [k, bytes ": ", v, crlf])
  output.append crlf

/-- `append_to` -/
def appendTo (r : HttpResponse) (it : Iteration) (output : Buffer) : Except NoReturn Buffer := do
  let output ← r.appendStatusLineAndHeadersTo it output
  output.append r.entityBody.peek

/-- `error_message_with` -/
def errorMessageWith (r : HttpResponse) (it : Iteration) (code : StatusCode) :
    Except NoReturn (Buffer × HttpResponse) := do
  let r := (r.setStatusCode code).setContentType MimeType.kDefault
  let entityBody ← appendAll r.entityBody.retrieveAll [bytes "<html><title>出错了~</title>",
    bytes "<body><h1>ERROR<hr /></h1><p>", decimal code.toNat, bytes ", ", r.phrase,
    bytes "</p></body></html>"]
  let r := { r with entityBody }
  return (← r.appendTo it (Buffer.ofSize kInitialSize), r)

/-- The content type `analyse` sets for a path. -/
def contentTypeOf (path : Bytes) : Bytes :=
  match findLastOf 46 path with
  | none => MimeType.kDefault
  | some posDot => MimeType.fromSuffix (path.drop posDot)

/-- The loop that reads a file into the entity body, up to its end or a failed
read, which is `none`. -/
def readFile (entityBody : Buffer) (size : Nat) :
    List ReadResult → Except NoReturn (Buffer × Bool)
  | [] => .error .stillReading
  | answer :: answers => do
      let (numRead, entityBody) ← entityBody.readFd answer
      if numRead < 0 then .ok (entityBody, false)
      else if entityBody.readableBytes < size then readFile entityBody size answers
      else if entityBody.readableBytes = size then .ok (entityBody, true)
      else .error (.assertion .bodySize)

/-- `analyse`: the reply, the response as it is left, and the calls made with the
descriptor. -/
def analyse (r : HttpResponse) (it : Iteration) (request : HttpRequest) (file : FileAnswer) :
    Except NoReturn (Buffer × HttpResponse × List FileCall) := do
  let r := (r.setCloseConnection request.isCloseConnection).setContentType
    (contentTypeOf request.path)
  match file with
  | .notOpened =>
      let (output, r) ← r.errorMessageWith it .k404NotFound
      return (output, r, [])
  | .noMetadata =>
      let (output, r) ← r.errorMessageWith it .k404NotFound
      return (output, r, [.opened, .closed])
  | .opened size reads => do
      let (entityBody, completed) ← readFile r.entityBody size reads
      let r := { r with entityBody }
      if completed then
        return (← r.appendTo it (Buffer.ofSize kInitialSize), r, [.opened, .closed])
      else
        let (output, r) ← r.errorMessageWith it .k404NotFound
        return (output, r, [.opened, .closed])

/-! ## Writing a reply -/

/-- Texts are appended one behind the other. -/
theorem appendAll_spec (output : Buffer) (texts : List Bytes) :
    ∃ b, appendAll output texts = .ok b ∧ b.peek = output.peek ++ texts.flatten := by
  induction texts generalizing output with
  | nil => exact ⟨output, rfl, by simp⟩
  | cons text texts ih =>
      obtain ⟨b₁, h₁, hpeek₁⟩ := output.append_spec text
      obtain ⟨b₂, h₂, hpeek₂⟩ := ih b₁
      refine ⟨b₂, ?_, by rw [hpeek₂, hpeek₁, List.flatten_cons, List.append_assoc]⟩
      rw [appendAll, h₁]
      exact h₂

/-- A header line. -/
def headerLine (entry : Bytes × Bytes) : Bytes := entry.1 ++ bytes ": " ++ entry.2 ++ crlf

/-- The status line, the header lines and the empty line behind them. -/
def head (r : HttpResponse) (it : Iteration) : Bytes :=
  r.statusText ++ r.phrase ++ crlf ++ r.lengthText ++
    (it.order r.headers).flatMap headerLine ++ crlf

theorem appendStatusLineAndHeadersTo_spec (r : HttpResponse) (it : Iteration) (output : Buffer) :
    ∃ b, r.appendStatusLineAndHeadersTo it output = .ok b ∧ b.peek = output.peek ++ r.head it := by
  rw [appendStatusLineAndHeadersTo]
  generalize hlines : (it.order r.headers).flatMap _ = texts
  have htexts : texts.flatten = (it.order r.headers).flatMap headerLine := by
    rw [← hlines, ← List.flatMap_id, List.flatMap_assoc]
    refine congrArg (List.flatMap · _) (funext fun entry ↦ ?_)
    simp [headerLine]
  obtain ⟨b₁, h₁, hpeek₁⟩ := appendAll_spec output [r.statusText, r.phrase, crlf]
  obtain ⟨b₂, h₂, hpeek₂⟩ := b₁.append_spec r.lengthText
  obtain ⟨b₃, h₃, hpeek₃⟩ := appendAll_spec b₂ texts
  obtain ⟨b₄, h₄, hpeek₄⟩ := b₃.append_spec crlf
  refine ⟨b₄, by simp only [h₁, h₂, h₃, h₄, ok_bind], ?_⟩
  rw [hpeek₄, hpeek₃, hpeek₂, hpeek₁, htexts, head]
  simp

theorem appendTo_spec (r : HttpResponse) (it : Iteration) (output : Buffer) :
    ∃ b, r.appendTo it output = .ok b ∧
      b.peek = output.peek ++ r.head it ++ r.entityBody.peek := by
  obtain ⟨b₁, h₁, hpeek₁⟩ := r.appendStatusLineAndHeadersTo_spec it output
  obtain ⟨b₂, h₂, hpeek₂⟩ := b₁.append_spec r.entityBody.peek
  exact ⟨b₂, by simp only [appendTo, h₁, h₂, ok_bind], by rw [hpeek₂, hpeek₁]⟩

/-- `error_message_with` returns. -/
theorem errorMessageWith_returns (r : HttpResponse) (it : Iteration) (code : StatusCode) :
    ∃ output r', r.errorMessageWith it code = .ok (output, r') := by
  obtain ⟨body, hbody, -⟩ := appendAll_spec
    ((r.setStatusCode code).setContentType MimeType.kDefault).entityBody.retrieveAll
    [bytes "<html><title>出错了~</title>", bytes "<body><h1>ERROR<hr /></h1><p>",
      decimal code.toNat, bytes ", ",
      ((r.setStatusCode code).setContentType MimeType.kDefault).phrase,
      bytes "</p></body></html>"]
  obtain ⟨output, houtput, -⟩ := appendTo_spec
    { (r.setStatusCode code).setContentType MimeType.kDefault with entityBody := body } it
    (Buffer.ofSize kInitialSize)
  refine ⟨output,
    { (r.setStatusCode code).setContentType MimeType.kDefault with entityBody := body }, ?_⟩
  simp only [errorMessageWith, hbody, ok_bind, houtput, pure_eq_ok]

/-! ## Closing the connection -/

theorem errorMessageWith_closeConnection {r r' : HttpResponse} {it : Iteration} {code : StatusCode}
    {output : Buffer} (h : r.errorMessageWith it code = .ok (output, r')) :
    r'.closeConnection = r.closeConnection := by
  obtain ⟨body, -, h⟩ := bind_eq_ok.mp h
  obtain ⟨text, -, h⟩ := bind_eq_ok.mp h
  cases h
  rfl

/-- Whatever becomes of the file, `analyse` closes the connection if the request
asks for it. -/
theorem analyse_closeConnection {r r' : HttpResponse} {it : Iteration} {request : HttpRequest}
    {file : FileAnswer} {output : Buffer} {calls : List FileCall}
    (h : r.analyse it request file = .ok (output, r', calls)) :
    r'.closeConnection = request.isCloseConnection := by
  cases file with
  | notOpened | noMetadata =>
      obtain ⟨⟨text, r₁⟩, herror, h⟩ := bind_eq_ok.mp h
      cases h
      exact errorMessageWith_closeConnection herror
  | opened size reads =>
      obtain ⟨⟨body, completed⟩, -, h⟩ := bind_eq_ok.mp h
      cases completed with
      | true =>
          obtain ⟨text, -, h⟩ := bind_eq_ok.mp h
          cases h
          rfl
      | false =>
          obtain ⟨⟨text, r₁⟩, herror, h⟩ := bind_eq_ok.mp h
          cases h
          exact errorMessageWith_closeConnection herror

end HttpResponse

end Wuduo.Http
