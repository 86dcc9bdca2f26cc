import Wuduo.Http.Decoding
import Wuduo.Http.Reading

/-!
# Serving a file

What `analyse` makes of a file, from the reads that deliver it to the bytes of the
reply.

## Results

* `analyse_served`: a file that is delivered in whatever pieces arrives whole.
* `analyse_failed`: a file that cannot be opened, or of which a read fails after
  however many others, leaves the reply that says so and nothing else.
-/

namespace Wuduo.Http.HttpResponse

open HttpContext Reply

/-! ## Files that are read -/

/-- The reads deliver this file, in pieces that are not empty; behind its end, there
is nothing to read. -/
def Delivers (f : Bytes) (reads : List ReadResult) : Prop :=
  ∃ pieces : List Bytes, pieces.flatten = f ∧ (∀ piece ∈ pieces, piece ≠ []) ∧
    reads = pieces.map .read ++ [.read []]

/-- The loop buffers the file, and ends with its last byte. -/
theorem readFile_delivers {f : Bytes} {reads : List ReadResult} (h : Delivers f reads)
    (body : Buffer) :
    ∃ b, readFile body (body.readableBytes + f.length) reads = .ok (b, true) ∧
      b.peek = body.peek ++ f := by
  obtain ⟨pieces, rfl, hpieces, rfl⟩ := h
  induction pieces generalizing body with
  | nil =>
      obtain ⟨b, hok, hpeek⟩ := body.readFd_read_spec []
      have hsize : b.readableBytes = body.readableBytes := by
        rw [← b.length_peek, hpeek, List.append_nil, body.length_peek]
      refine ⟨b, ?_, hpeek⟩
      simp [readFile, hok, hsize]
  | cons piece pieces ih =>
      obtain ⟨hpiece, hpieces⟩ := List.forall_mem_cons.mp hpieces
      obtain ⟨b, hok, hpeek⟩ := body.readFd_read_spec piece
      have hsize : b.readableBytes = body.readableBytes + piece.length := by
        rw [← b.length_peek, hpeek, List.length_append, body.length_peek]
      have htotal : body.readableBytes + (piece :: pieces).flatten.length
          = b.readableBytes + pieces.flatten.length := by
        rw [List.flatten_cons, List.length_append, hsize, Nat.add_assoc]
      have hturn : readFile body (body.readableBytes + (piece :: pieces).flatten.length)
            ((piece :: pieces).map .read ++ [.read []])
          = if b.readableBytes < b.readableBytes + pieces.flatten.length then
              readFile b (b.readableBytes + pieces.flatten.length) (pieces.map .read ++ [.read []])
            else if b.readableBytes = b.readableBytes + pieces.flatten.length then .ok (b, true)
            else .error (.assertion .bodySize) := by
        rw [htotal, List.map_cons, List.cons_append]
        simp only [readFile, hok, ok_bind]
        rw [if_neg (by omega)]
      rw [hturn]
      by_cases hlast : pieces = []
      · subst hlast
        refine ⟨b, ?_, by rw [hpeek, List.flatten_singleton]⟩
        rw [List.flatten_nil, List.length_nil, Nat.add_zero, if_neg (Nat.lt_irrefl _), if_pos rfl]
      · obtain ⟨next, rest, rfl⟩ := List.exists_cons_of_ne_nil hlast
        have hnext := List.length_pos_of_ne_nil (hpieces next List.mem_cons_self)
        obtain ⟨b', hread, hpeek'⟩ := ih b hpieces
        refine ⟨b', ?_, by rw [hpeek', hpeek, List.append_assoc]; rfl⟩
        rw [if_pos (by rw [List.flatten_cons, List.length_append]; omega)]
        exact hread

/-! ## The reply -/

/-- The response as it is when the file is opened. -/
def prepared (r : HttpResponse) (request : HttpRequest) : HttpResponse :=
  (r.setCloseConnection request.isCloseConnection).setContentType (contentTypeOf request.path)

/-- The headers of a fresh response that is prepared for a request. -/
theorem headers_prepared (closeConnection : Bool) (code : StatusCode) (request : HttpRequest) :
    (((new closeConnection).setStatusCode code).prepared request).headers =
      [(bytes "Connection", if request.isCloseConnection then bytes "close" else
        bytes "keep-alive"), (bytes "Content-Type", contentTypeOf request.path)] := by
  have hother : bytes "Connection" ≠ bytes "Content-Type" := by decide
  simp [prepared, new, setContentType, setCloseConnection, setStatusCode, setPhrase, addHeader,
    assign, hother]

/-- The response as it is when the file is closed. -/
def buffered (r : HttpResponse) (request : HttpRequest) (body : Buffer) : HttpResponse :=
  { r.prepared request with entityBody := body }

/-- A file that is read to its end is replied. -/
theorem analyse_of_readFile {r : HttpResponse} {it : Iteration} {request : HttpRequest} {size : Nat}
    {reads : List ReadResult} {body output : Buffer}
    (hread : readFile r.entityBody size reads = .ok (body, true))
    (hok : (r.buffered request body).appendTo it (Buffer.ofSize kInitialSize) = .ok output) :
    r.analyse it request (.opened size reads) =
      .ok (output, r.buffered request body, [.opened, .closed]) :=
  bind_eq_ok.mpr ⟨(body, true), hread, bind_eq_ok.mpr ⟨output, hok, rfl⟩⟩

theorem isLine_contentTypeOf (path : Bytes) : IsLine (contentTypeOf path) := by
  have htypes : ∀ entry ∈ MimeType.types, IsLine entry.2 := by decide
  have hdefault : MimeType.types.lookup (bytes "default") = some MimeType.kDefault := by decide
  rw [contentTypeOf]
  split
  · exact isEntry_kDefault.value
  · rename_i posDot _
    rw [MimeType.fromSuffix, hdefault]
    cases hlookup : MimeType.types.lookup (path.drop posDot) with
    | none => exact isEntry_kDefault.value
    | some contentType =>
        obtain ⟨l₁, l₂, hsplit, -⟩ := List.lookup_eq_some_iff.mp hlookup
        exact htypes (path.drop posDot, contentType) (hsplit ▸ by simp)

/-- A response with these two headers can be read back. -/
theorem readable_prepared {r : HttpResponse} {close : Bool} {contentType : Bytes}
    (hphrase : IsLine r.phrase) (hcontentType : IsLine contentType)
    (hheaders : r.headers = [(bytes "Connection", if close then bytes "close" else
      bytes "keep-alive"), (bytes "Content-Type", contentType)]) : r.Readable where
  phrase := hphrase
  entry entry hentry := by
    rw [hheaders] at hentry
    rcases List.mem_cons.mp hentry with rfl | hentry
    · exact isEntry_connection close
    · rw [List.mem_singleton.mp hentry]
      exact { isEntry_kDefault with value := hcontentType }

/-- **A served file arrives whole.**  Whatever the pieces in which a file of less than
`10 ^ 13` bytes is delivered, the reply of a fresh response is read back as the status
200, the length of the file and the file, with nothing behind it; and the descriptor
has been closed once. -/
theorem analyse_served (closeConnection : Bool) (it : Iteration) (request : HttpRequest)
    (f : Bytes) (reads : List ReadResult) (hf : f.length < 10 ^ 13) (h : Delivers f reads) :
    ∃ output r reply, ((new closeConnection).setStatusCode .k200Ok).analyse it request
        (.opened f.length reads) = .ok (output, r, [.opened, .closed]) ∧
      (∀ text ∈ r.scratchTexts, text.length < kScratch) ∧ decode output.peek = some reply ∧
      reply.status = 200 ∧ reply.length = f.length ∧ reply.body = f ∧ reply.rest = [] := by
  obtain ⟨body, hread, hbody⟩ := readFile_delivers h (new closeConnection).entityBody
  have hempty : (new closeConnection).entityBody.peek = [] := Buffer.peek_ofSize _
  rw [hempty, List.nil_append] at hbody
  rw [Buffer.peek_eq_nil_iff.mp hempty, Nat.zero_add] at hread
  have hsize : body.readableBytes = f.length := by rw [← body.length_peek, hbody]
  let r := ((new closeConnection).setStatusCode .k200Ok).buffered request body
  have hreadable : r.Readable := readable_prepared (isLine_phrase .k200Ok)
    (isLine_contentTypeOf request.path) (headers_prepared closeConnection .k200Ok request)
  obtain ⟨output, hok, hpeek⟩ := r.appendTo_spec it (Buffer.ofSize kInitialSize)
  have hdecode := decode_head hreadable it []
  rw [List.append_nil] at hdecode
  rw [Buffer.peek_ofSize, List.nil_append] at hpeek
  exact ⟨output, r, _, analyse_of_readFile hread hok, scratchTexts_lt (hsize ▸ hf),
    hpeek ▸ hdecode, rfl, hsize, hbody, rfl⟩

/-- A file of three bytes, in two pieces. -/
theorem analyse_served_run :
    ∃ output r reply, ((new true).setStatusCode .k200Ok).analyse .listed {}
        (.opened 3 [.read [1, 2], .read [3], .read []]) = .ok (output, r, [.opened, .closed]) ∧
      (∀ text ∈ r.scratchTexts, text.length < kScratch) ∧ decode output.peek = some reply ∧
      reply.status = 200 ∧ reply.length = 3 ∧ reply.body = [1, 2, 3] ∧ reply.rest = [] :=
  analyse_served true .listed {} [1, 2, 3] [.read [1, 2], .read [3], .read []] (by decide)
    ⟨[[1, 2], [3]], rfl, by decide, rfl⟩

/-! ## Failures -/

/-- The file cannot be opened, or its size is not to be had, or a read fails while
fewer bytes are buffered than expected. -/
inductive Fails : FileAnswer → Prop where
  | notOpened : Fails .notOpened
  | noMetadata : Fails .noMetadata
  | read {size : Nat} {pieces : List Bytes} {errno : Nat} {reads : List ReadResult}
      (h : ∀ t ∈ totals 0 (pieces.map .read), t < size) :
      Fails (.opened size (pieces.map .read ++ .failed errno :: reads))

/-- The calls made with the descriptor of a file that fails. -/
def callsOf (file : FileAnswer) : List FileCall :=
  if file = .notOpened then [] else [.opened, .closed]

/-- The page that is sent for an error. -/
def errorPage (code : StatusCode) : Bytes :=
  bytes "<html><title>出错了~</title>" ++ bytes "<body><h1>ERROR<hr /></h1><p>" ++
    decimal code.toNat ++ bytes ", " ++ code.phrase ++ bytes "</p></body></html>"

/-- Whatever the body was, it is the page afterwards. -/
theorem errorMessageWith_spec (r : HttpResponse) (it : Iteration) (code : StatusCode) :
    ∃ output r', r.errorMessageWith it code = .ok (output, r') ∧
      output.peek = r'.head it ++ r'.entityBody.peek ∧
      r'.headers = (r.setContentType MimeType.kDefault).headers ∧ r'.statusCode = code ∧
      r'.phrase = code.phrase ∧ r'.entityBody.peek = errorPage code := by
  let page := [bytes "<html><title>出错了~</title>", bytes "<body><h1>ERROR<hr /></h1><p>",
    decimal code.toNat, bytes ", ", code.phrase, bytes "</p></body></html>"]
  obtain ⟨body, hbody, hpeek⟩ := appendAll_spec r.entityBody.retrieveAll page
  let r' : HttpResponse :=
    { (r.setStatusCode code).setContentType MimeType.kDefault with entityBody := body }
  obtain ⟨output, hok, houtput⟩ := r'.appendTo_spec it (Buffer.ofSize kInitialSize)
  rw [Buffer.peek_ofSize, List.nil_append] at houtput
  refine ⟨output, r', ?_, houtput, rfl, rfl, rfl, ?_⟩
  · exact bind_eq_ok.mpr ⟨body, hbody, bind_eq_ok.mpr ⟨output, hok, rfl⟩⟩
  · show body.peek = errorPage code
    rw [hpeek, Buffer.peek_retrieveAll, List.nil_append]
    simp [page, errorPage]

/-- The loop ends at a read that fails, with some of the file in the body. -/
theorem readFile_fails {size : Nat} {pieces : List Bytes} (body : Buffer)
    (h : ∀ t ∈ totals body.readableBytes (pieces.map .read), t < size) (errno : Nat)
    (reads : List ReadResult) :
    ∃ b, readFile body size (pieces.map .read ++ .failed errno :: reads) = .ok (b, false) := by
  induction pieces generalizing body with
  | nil => exact ⟨body, rfl⟩
  | cons piece pieces ih =>
      obtain ⟨b, htotal, hturn⟩ := readFile_read body size piece
        (pieces.map .read ++ .failed errno :: reads)
      rw [List.map_cons, totals, ← htotal] at h
      obtain ⟨hlt, hrest⟩ := List.forall_mem_cons.mp h
      obtain ⟨b', hread⟩ := ih b hrest
      exact ⟨b', by rw [List.map_cons, List.cons_append, hturn, if_pos hlt, hread]⟩

/-- **A failure is replied with the page for it.** -/
theorem analyse_of_fails {r : HttpResponse} {file : FileAnswer} (hempty : r.entityBody.peek = [])
    (h : Fails file) (it : Iteration) (request : HttpRequest) :
    ∃ body, ∀ output r', (r.buffered request body).errorMessageWith it .k404NotFound
        = .ok (output, r') → r.analyse it request file = .ok (output, r', callsOf file) := by
  cases h with
  | notOpened =>
      refine ⟨r.entityBody, fun output r' herror ↦ ?_⟩
      exact bind_eq_ok.mpr ⟨(output, r'), herror, rfl⟩
  | noMetadata =>
      refine ⟨r.entityBody, fun output r' herror ↦ ?_⟩
      exact bind_eq_ok.mpr ⟨(output, r'), herror, rfl⟩
  | @read size pieces errno reads htotals =>
      rw [← Buffer.peek_eq_nil_iff.mp hempty] at htotals
      obtain ⟨body, hread⟩ := readFile_fails r.entityBody htotals errno reads
      refine ⟨body, fun output r' herror ↦ ?_⟩
      exact bind_eq_ok.mpr ⟨(body, false), hread, bind_eq_ok.mpr ⟨(output, r'), herror, rfl⟩⟩

/-- The same reply up to the order of its header lines. -/
def SameReply (a b : Bytes) : Prop :=
  ∃ (line : Bytes) (entries entries' : List (Bytes × Bytes)) (body : Bytes),
    IsLine line ∧ (∀ entry ∈ entries, IsEntry entry) ∧
    entries.Perm entries' ∧
    a = line ++ crlf ++ entries.flatMap headerLine ++ crlf ++ body ∧
    b = line ++ crlf ++ entries'.flatMap headerLine ++ crlf ++ body

/-- What is written for a response depends on what it says and on the order of its
header map. -/
theorem sameReply_of_readable {r : HttpResponse} (h : r.Readable) (it it' : Iteration) :
    SameReply (r.head it ++ r.entityBody.peek) (r.head it' ++ r.entityBody.peek) := by
  refine ⟨bytes "HTTP/1.1 " ++ decimal r.statusCode.toNat ++ bytes " " ++ r.phrase, r.entries it,
    r.entries it', r.entityBody.peek, isLine_statusLine h.phrase, h.isEntry it, ?_, ?_, ?_⟩
  · exact ((it.perm r.headers).trans (it'.perm r.headers).symm).cons _
  · rw [head_eq]
  · rw [head_eq]

/-- Two responses that say the same are written in the same way. -/
theorem head_congr {r r' : HttpResponse} (hheaders : r.headers = r'.headers)
    (hcode : r.statusCode = r'.statusCode) (hphrase : r.phrase = r'.phrase)
    (hbody : r.entityBody.peek = r'.entityBody.peek) (it : Iteration) :
    r.head it ++ r.entityBody.peek = r'.head it ++ r'.entityBody.peek := by
  have hlength : r.lengthText = r'.lengthText := by
    rw [lengthText, lengthText, ← Buffer.length_peek, ← Buffer.length_peek, hbody]
  rw [head, head, statusText, statusText, hlength, hheaders, hcode, hphrase, hbody]

/-- The headers of the reply to a file that fails. -/
def failureHeaders (closeConnection : Bool) : List (Bytes × Bytes) :=
  [(bytes "Connection", if closeConnection then bytes "close" else bytes "keep-alive"),
    (bytes "Content-Type", MimeType.kDefault)]

theorem headers_new (closeConnection : Bool) :
    ((new closeConnection).setContentType MimeType.kDefault).headers
      = failureHeaders closeConnection := by
  cases closeConnection <;> decide

theorem headers_buffered (closeConnection : Bool) (request : HttpRequest) (body : Buffer) :
    ((((new closeConnection).setStatusCode .k200Ok).buffered request body).setContentType
      MimeType.kDefault).headers = failureHeaders request.isCloseConnection := by
  have hother : bytes "Connection" ≠ bytes "Content-Type" := by decide
  rw [setContentType, addHeader, buffered]
  simp only [headers_prepared]
  rw [assign, if_neg hother, assign, if_pos rfl]
  rfl

/-- **A failed read leaves no trace.**  Whatever the ways in which two files fail, the
replies to a request are the same up to the order of their header lines.  They are the
reply that a fresh response has for the error, and are read back as the status 404, the
default content type and the page for it; and a descriptor that was opened has been
closed once. -/
theorem analyse_failed (closeConnection : Bool) (it it' : Iteration) (request : HttpRequest)
    (file file' : FileAnswer) (h : Fails file) (h' : Fails file') :
    ∃ output output' expected r r' r₀ reply,
      ((new closeConnection).setStatusCode .k200Ok).analyse it request file
        = .ok (output, r, callsOf file) ∧
      ((new closeConnection).setStatusCode .k200Ok).analyse it' request file'
        = .ok (output', r', callsOf file') ∧
      (new request.isCloseConnection).errorMessageWith it .k404NotFound = .ok (expected, r₀) ∧
      SameReply output.peek output'.peek ∧ output.peek = expected.peek ∧
      decode output.peek = some reply ∧ reply.status = 404 ∧
      (bytes "Content-Type", MimeType.kDefault) ∈ reply.headers ∧
      reply.length = (errorPage .k404NotFound).length ∧ reply.body = errorPage .k404NotFound ∧
      reply.rest = [] := by
  have hempty : ((new closeConnection).setStatusCode .k200Ok).entityBody.peek = [] :=
    Buffer.peek_ofSize _
  obtain ⟨body, hanalyse⟩ := analyse_of_fails hempty h it request
  obtain ⟨output, r, herror, hpeek, hheaders, hcode, hphrase, hpage⟩ :=
    errorMessageWith_spec (((new closeConnection).setStatusCode .k200Ok).buffered request body) it
      .k404NotFound
  obtain ⟨body', hanalyse'⟩ := analyse_of_fails hempty h' it' request
  obtain ⟨output', r', herror', hpeek', hheaders', hcode', hphrase', hpage'⟩ :=
    errorMessageWith_spec (((new closeConnection).setStatusCode .k200Ok).buffered request body') it'
      .k404NotFound
  obtain ⟨expected, r₀, herror₀, hpeek₀, hheaders₀, hcode₀, hphrase₀, hpage₀⟩ :=
    errorMessageWith_spec (new request.isCloseConnection) it .k404NotFound
  rw [headers_buffered] at hheaders hheaders'
  rw [headers_new] at hheaders₀
  have hreadable : r.Readable :=
    readable_prepared (hphrase ▸ isLine_phrase _) isEntry_kDefault.value hheaders
  have hdecode := decode_head hreadable it []
  rw [List.append_nil, ← hpeek] at hdecode
  refine ⟨output, output', expected, r, r', r₀, _, hanalyse _ _ herror, hanalyse' _ _ herror',
    herror₀, ?_, ?_, hdecode, ?_, ?_, ?_, hpage, rfl⟩
  · rw [hpeek, hpeek', head_congr (hheaders'.trans hheaders.symm) (hcode'.trans hcode.symm)
      (hphrase'.trans hphrase.symm) (hpage'.trans hpage.symm)]
    exact sameReply_of_readable hreadable it it'
  · rw [hpeek, hpeek₀, head_congr (hheaders.trans hheaders₀.symm) (hcode.trans hcode₀.symm)
      (hphrase.trans hphrase₀.symm) (hpage.trans hpage₀.symm)]
  · show r.statusCode.toNat = 404
    rw [hcode]
    rfl
  · refine List.mem_cons_of_mem _ ((it.perm r.headers).mem_iff.mpr ?_)
    rw [hheaders]
    exact List.mem_cons_of_mem _ (List.mem_singleton_self _)
  · show r.entityBody.readableBytes = _
    rw [← Buffer.length_peek, hpage]

/-- A file that is not there, and one that is read in part. -/
theorem analyse_failed_run :
    ∃ output output' expected r r' r₀ reply,
      ((new true).setStatusCode .k200Ok).analyse .listed {} .notOpened
        = .ok (output, r, []) ∧
      ((new true).setStatusCode .k200Ok).analyse .listed {}
        (.opened 3 [.read [1, 2], .failed 5]) = .ok (output', r', [.opened, .closed]) ∧
      (new true).errorMessageWith .listed .k404NotFound = .ok (expected, r₀) ∧
      SameReply output.peek output'.peek ∧ output.peek = expected.peek ∧
      decode output.peek = some reply ∧ reply.status = 404 ∧
      (bytes "Content-Type", MimeType.kDefault) ∈ reply.headers ∧
      reply.length = (errorPage .k404NotFound).length ∧ reply.body = errorPage .k404NotFound ∧
      reply.rest = [] :=
  analyse_failed true .listed .listed {} .notOpened (.opened 3 [.read [1, 2], .failed 5])
    .notOpened (@Fails.read 3 [[1, 2]] 5 [] (by decide))

end Wuduo.Http.HttpResponse
