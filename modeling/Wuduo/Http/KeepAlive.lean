import Wuduo.Http.Cutting
import Wuduo.Http.Grammar
import Wuduo.Http.HttpServer
import Mathlib.Data.List.Forall2

/-!
# Several requests on one connection

A client may send its next request before it has the reply to the last, so the
bytes of several requests can arrive in one read.  Each request should be replied
to, in order, and none left in the buffer.

`on_message` handles one request for each read: `parse_request` stops behind the
request it has completed, the reply is sent, and what else is in the buffer waits
for the next read.  `answersAll_iff` says which deliveries leave nothing waiting:
those in which, for each `i`, at most `i` of the requests end within the last `i`
reads.  `not_answersAll` is two requests in one read.

The proof is in two parts.  `answered` counts how many requests are replied to if
each read allows for one, and `answered_eq_length_iff` is about these numbers;
`serve_cases` says that the server does as counted.
-/

namespace Wuduo.Http

open HttpContext

/-! ## One reply for each read -/

/-- How many of the requests of lengths `ts` are replied to in the course of reads
of lengths `rs`, if `n` bytes have been read before and each read is followed by
one reply at most. -/
def answered : List Nat → Nat → List Nat → Nat
  | _, _, [] => 0
  | [], _, _ :: _ => 0
  | t :: ts, n, r :: rs =>
      if t ≤ n + r then answered ts (n + r - t) rs + 1 else answered (t :: ts) (n + r) rs

/-- At most `i` of the requests end within the last `i` reads. -/
def InTime (ts : List Nat) (n : Nat) (rs : List Nat) : Prop :=
  ∀ i < ts.length, i < rs.length ∧
    (ts.take (ts.length - i)).sum ≤ n + (rs.take (rs.length - i)).sum

theorem answered_le_length (ts : List Nat) (n : Nat) (rs : List Nat) :
    answered ts n rs ≤ ts.length := by
  fun_induction answered ts n rs with
  | case1 => exact Nat.zero_le _
  | case2 => exact Nat.zero_le _
  | case3 t ts n r rs h ih => exact Nat.succ_le_succ ih
  | case4 t ts n r rs h ih => exact ih

/-- Counting the last `i` reads off a list of reads, the first of which is not
among them. -/
theorem sum_take_cons {r i : Nat} {rs : List Nat} (h : i ≤ rs.length) :
    ((r :: rs).take ((r :: rs).length - i)).sum = r + (rs.take (rs.length - i)).sum := by
  rw [List.length_cons, Nat.succ_sub h, List.take_succ_cons, List.sum_cons]

/-- A read that is followed by a reply. -/
theorem inTime_reply {t : Nat} {ts : List Nat} {n r : Nat} {rs : List Nat} (h : t ≤ n + r) :
    InTime (t :: ts) n (r :: rs) ↔ InTime ts (n + r - t) rs := by
  constructor
  · intro hin i hi
    have hlast := (hin ts.length (by simp)).1
    obtain ⟨-, hsum⟩ := hin i (by rw [List.length_cons]; omega)
    rw [List.length_cons] at hlast
    rw [sum_take_cons (by omega), sum_take_cons (by omega)] at hsum
    exact ⟨by omega, by omega⟩
  · intro hin i hi
    rw [List.length_cons] at hi
    have hle : ts.length ≤ rs.length := by
      by_contra hgt
      have := (hin (ts.length - 1) (by omega)).1
      omega
    refine ⟨by rw [List.length_cons]; omega, ?_⟩
    rw [sum_take_cons (by omega), sum_take_cons (by omega)]
    rcases Nat.lt_succ_iff_lt_or_eq.mp hi with hi | rfl
    · have := (hin i hi).2
      omega
    · rw [Nat.sub_self, List.take_zero, List.sum_nil]
      omega

/-- A read that is not. -/
theorem inTime_wait {t : Nat} {ts : List Nat} {n r : Nat} {rs : List Nat} (h : ¬ t ≤ n + r) :
    InTime (t :: ts) n (r :: rs) ↔ InTime (t :: ts) (n + r) rs := by
  constructor
  · intro hin i hi
    obtain ⟨hlt, hsum⟩ := hin i hi
    rw [List.length_cons] at hi hlt
    rw [sum_take_cons (by omega), sum_take_cons (by omega)] at hsum
    refine ⟨?_, by rw [sum_take_cons (by omega)]; omega⟩
    -- the request ends later, so this read is not among the last
    rcases Nat.lt_succ_iff_lt_or_eq.mp hlt with hlt | rfl
    · exact hlt
    · rw [Nat.sub_self, List.take_zero, List.sum_nil] at hsum
      omega
  · intro hin i hi
    obtain ⟨hlt, hsum⟩ := hin i hi
    refine ⟨by rw [List.length_cons]; omega, ?_⟩
    have hle : i ≤ rs.length := by omega
    rw [sum_take_cons hle]
    omega

/-- All requests are replied to exactly if at most `i` of them end within the last
`i` reads, for each `i`. -/
theorem answered_eq_length_iff (ts : List Nat) (n : Nat) (rs : List Nat) :
    answered ts n rs = ts.length ↔ InTime ts n rs := by
  fun_induction answered ts n rs with
  | case1 ts n =>
      refine ⟨fun h i hi ↦ absurd hi (by omega), ?_⟩
      intro h
      by_contra hne
      exact absurd (h 0 (by omega)).1 (by simp)
  | case2 n r rs => exact iff_of_true rfl fun i hi ↦ absurd hi (by simp)
  | case3 t ts n r rs h ih =>
      rw [List.length_cons, Nat.add_right_cancel_iff, ih, inTime_reply h]
  | case4 t ts n r rs h ih => rw [ih, inTime_wait h]

/-! ## Requests -/

/-- The text is a GET request with `Connection: keep-alive`, and `r` is what it
says. -/
def IsKeepAliveGet (text : Bytes) (r : HttpRequest) : Prop :=
  ∃ line headers, IsHead text line headers [] ∧
    RequestLine.fromLine line = .ok (some r.requestLine) ∧ r.method = .kGet ∧
    r.headers = headers.map headerEntry ∧
    ∃ h ∈ headers, headerName h = bytes "Connection" ∧ headerValue h = bytes "keep-alive"

section IsKeepAliveGet

variable {text : Bytes} {r : HttpRequest} (h : IsKeepAliveGet text r)

include h

/-- Such a request is completed whatever follows it, and nothing of that is
consumed. -/
theorem parse_of_isKeepAliveGet (x : Bytes) :
    parse {} (text ++ x) = .ok (true, ⟨.kCompleted, r⟩, x) := by
  obtain ⟨line, headers, hhead, hline, -, hheaders, -⟩ := h
  have hhead' : IsHead (text ++ x) line headers x :=
    { hhead with text := by rw [hhead.text]; simp }
  obtain ⟨r', hline', -, hparse⟩ := parse_head hhead'
  rw [hline] at hline'
  cases hline'
  rw [hparse, ← hheaders]

theorem isCloseConnection_of_isKeepAliveGet : r.isCloseConnection = false := by
  obtain ⟨line, headers, hhead, -, -, hheaders, l, hl, hname, hvalue⟩ := h
  have hget : r.getHeader (bytes "Connection") = some (bytes "keep-alive") := by
    rw [HttpRequest.getHeader, hheaders, ← hname, lookup_headerEntry hhead.distinct hl, hvalue]
  simp only [HttpRequest.isCloseConnection, hget]
  decide

theorem returnsNoPost_of_isKeepAliveGet : ReturnsNoPost text := by
  obtain ⟨line, headers, hhead, hline, hmethod, -⟩ := h
  intro line' rest hcut
  have hfirst : cutLine text = some (line, linesText headers ++ crlf ++ []) :=
    cutLine_eq_some_iff.mpr ⟨by simp [hhead.text], hhead.free line List.mem_cons_self⟩
  rw [hfirst] at hcut
  cases hcut
  refine ⟨_, hline, ?_⟩
  intro r' hr'
  cases hr'
  rw [show r.requestLine.method = .kGet from hmethod]
  decide

theorem ne_nil_of_isKeepAliveGet : text ≠ [] := by
  rintro rfl
  have hparse := parse_of_isKeepAliveGet h []
  rw [List.append_nil, parse_of_no_line rfl rfl] at hparse
  cases hparse

end IsKeepAliveGet

/-! ## The server -/

/-- Delivers the reads, each with the world it finds outside: the bytes are
appended to the input buffer and `on_message` is called once. -/
def serve (context : HttpContext) (buf : Buffer) :
    List (Bytes × Host) → Except NoReturn (HttpContext × Buffer × List ConnectionCall)
  | [] => return (context, buf, [])
  | (data, host) :: reads => do
      let (_, buf) ← buf.readFd (.read data)
      let (context, buf, calls) ← HttpServer.onMessage host context buf
      let (context, buf, calls') ← serve context buf reads
      return (context, buf, calls ++ calls')

/-- The call sends the reply to this request, as one of these hosts gives it. -/
def IsReply (hosts : List Host) (call : ConnectionCall) (r : HttpRequest) : Prop :=
  ∃ host ∈ hosts, ∃ data closeConnection,
    HttpServer.reply host r = .ok (data, closeConnection) ∧ call = .send data

/-- The calls are the replies to the requests, one for each and in order, and no
complete request is left in the buffer. -/
def AnswersAll (hosts : List Host) (requests : List HttpRequest) (calls : List ConnectionCall)
    (buf : Buffer) : Prop :=
  List.Forall₂ (IsReply hosts) calls requests ∧
    ¬ ∃ line headers rest, IsHead buf.peek line headers rest

/-- What a context and its buffer stand for: the text `seen`, which is still to be
parsed or has been parsed as far as it goes. -/
def StandsFor (context : HttpContext) (buf : Buffer) (seen : Bytes) : Prop :=
  context = {} ∧ buf.peek = seen ∨
    context.request.method ≠ .kPost ∧ parse {} seen = .ok (true, context, buf.peek)

/-- Either way, parsing goes on as if it had not been interrupted. -/
theorem StandsFor.parse {context : HttpContext} {buf : Buffer} {seen : Bytes}
    (h : StandsFor context buf seen) (x : Bytes) :
    context.parse (buf.peek ++ x) = HttpContext.parse {} (seen ++ x) := by
  rcases h with ⟨rfl, rfl⟩ | ⟨hpost, hparse⟩
  · rfl
  · exact (parse_append hparse hpost x).symm

theorem StandsFor.peek_eq_nil {context : HttpContext} {buf : Buffer}
    (h : StandsFor context buf []) : buf.peek = [] := by
  rcases h with ⟨-, hpeek⟩ | ⟨-, hparse⟩
  · exact hpeek
  · rw [parse_of_no_line rfl rfl] at hparse
    exact (Prod.mk.inj (Prod.mk.inj (Except.ok.inj hparse)).2).2.symm

theorem reply_closeConnection {host : Host} {r : HttpRequest} {data : Bytes} {close : Bool}
    (h : HttpServer.reply host r = .ok (data, close)) : close = r.isCloseConnection := by
  obtain ⟨⟨buf, response, fileCalls⟩, hanalyse, h⟩ := bind_eq_ok.mp h
  cases h
  exact HttpResponse.analyse_closeConnection hanalyse

/-- A read that completes a request: its reply is sent, and the context is fresh
again. -/
theorem onMessage_reply {text rest : Bytes} {r : HttpRequest} (h : IsKeepAliveGet text r)
    {host : Host} {context context' : HttpContext} {buf buf' : Buffer}
    {calls : List ConnectionCall} (hparse : context.parse buf.peek = parse {} (text ++ rest))
    (hok : HttpServer.onMessage host context buf = .ok (context', buf', calls)) :
    context' = {} ∧ buf'.peek = rest ∧
      ∃ data closeConnection, HttpServer.reply host r = .ok (data, closeConnection) ∧
        calls = [.send data] := by
  rw [parse_of_isKeepAliveGet h] at hparse
  obtain ⟨buf₁, hrequest, rfl⟩ := parseRequest_of_ok hparse
  simp only [HttpServer.onMessage, hrequest, HttpServer.onError, HttpServer.onCompleted, ok_bind,
    pure_eq_ok, if_true] at hok
  cases hreply : HttpServer.reply host r with
  | error e => rw [hreply] at hok; cases hok
  | ok out =>
      obtain ⟨data, close⟩ := out
      rw [hreply] at hok
      cases hok
      have hclose := reply_closeConnection hreply
      rw [isCloseConnection_of_isKeepAliveGet h] at hclose
      exact ⟨rfl, rfl, data, close, rfl, by rw [hclose]; rfl⟩

/-- A read that completes no request: nothing is sent. -/
theorem onMessage_wait {text seen y : Bytes} {r : HttpRequest} (h : IsKeepAliveGet text r)
    (htext : text = seen ++ y) (hy : y ≠ []) {host : Host} {context context' : HttpContext}
    {buf buf' : Buffer} {calls : List ConnectionCall}
    (hparse : context.parse buf.peek = parse {} seen)
    (hok : HttpServer.onMessage host context buf = .ok (context', buf', calls)) :
    StandsFor context' buf' seen ∧ calls = [] := by
  have hline : ReturnsNoPost seen := (htext ▸ returnsNoPost_of_isKeepAliveGet h).of_append
  have htotal := parse_of_isKeepAliveGet h []
  rw [List.append_nil, htext] at htotal
  rcases parse_fresh hline with ⟨-, herror⟩ | ⟨-, result, c, s, hseen, hpost⟩
  · rw [herror] at hparse
    simp only [HttpServer.onMessage, parseRequest_of_error hparse, error_bind] at hok
    cases hok
  · rw [hseen] at hparse
    obtain ⟨buf₁, hrequest, rfl⟩ := parseRequest_of_ok hparse
    have hend := (parse_append hseen hpost y).symm.trans htotal
    -- the text is not refused, nor complete before its end
    have hresult : result = true := by
      cases result with
      | true => rfl
      | false =>
          rw [parse_false_append hseen] at hend
          cases hend
    have hphase : c.phase ≠ .kCompleted := by
      intro hc
      rw [parse_of_completed hc] at hend
      have hempty : buf₁.peek ++ y = [] := by
        simpa using (Prod.mk.inj (Prod.mk.inj (Except.ok.inj hend)).2).2
      exact hy (List.append_eq_nil_iff.mp hempty).2
    subst hresult
    simp only [HttpServer.onMessage, hrequest, HttpServer.onError, HttpServer.onCompleted, ok_bind,
      pure_eq_ok, if_true, if_neg hphase] at hok
    cases hok
    exact ⟨.inr ⟨hpost, hseen⟩, rfl⟩

/-- A read with nothing to parse. -/
theorem onMessage_nothing {host : Host} {context context' : HttpContext} {buf buf' : Buffer}
    {calls : List ConnectionCall} (hparse : context.parse buf.peek = parse {} [])
    (hok : HttpServer.onMessage host context buf = .ok (context', buf', calls)) :
    context' = {} ∧ buf'.peek = [] ∧ calls = [] := by
  rw [parse_of_no_line (c := {}) rfl rfl] at hparse
  obtain ⟨buf₁, hrequest, hpeek⟩ := parseRequest_of_ok hparse
  simp only [HttpServer.onMessage, hrequest, HttpServer.onError, HttpServer.onCompleted, ok_bind,
    pure_eq_ok, if_true] at hok
  cases hok
  exact ⟨rfl, hpeek, rfl⟩

/-- Serving a read, and then the others. -/
theorem serve_cons {context context' : HttpContext} {buf buf' : Buffer} {data : Bytes}
    {host : Host} {reads : List (Bytes × Host)} {calls : List ConnectionCall}
    (hok : serve context buf ((data, host) :: reads) = .ok (context', buf', calls)) :
    ∃ buf₁ context₂ buf₂ calls₁ calls₂, buf₁.peek = buf.peek ++ data ∧
      HttpServer.onMessage host context buf₁ = .ok (context₂, buf₂, calls₁) ∧
      serve context₂ buf₂ reads = .ok (context', buf', calls₂) ∧ calls = calls₁ ++ calls₂ := by
  obtain ⟨buf₁, hread, hpeek⟩ := buf.readFd_read_spec data
  simp only [serve, hread, ok_bind] at hok
  obtain ⟨⟨context₂, buf₂, calls₁⟩, hmessage, hok⟩ := bind_eq_ok.mp hok
  obtain ⟨⟨context₃, buf₃, calls₂⟩, hserve, hok⟩ := bind_eq_ok.mp hok
  cases hok
  exact ⟨buf₁, context₂, buf₂, calls₁, calls₂, hpeek, hmessage, hserve, rfl⟩

/-- Two cuts of one text: the first part of one reaches into the other. -/
theorem append_eq_append_of_length {a b c d : Bytes} (h : a ++ b = c ++ d) :
    (c.length ≤ a.length → ∃ m, a = c ++ m ∧ d = m ++ b) ∧
      (¬ c.length ≤ a.length → ∃ m, c = a ++ m ∧ m ≠ [] ∧ b = m ++ d) := by
  rcases List.append_eq_append_iff.mp h with ⟨m, rfl, rfl⟩ | ⟨m, rfl, rfl⟩
  · refine ⟨fun hle ↦ ?_, fun hlt ↦ ⟨m, rfl, ?_, rfl⟩⟩
    · rw [List.length_append] at hle
      rw [List.length_eq_zero_iff.mp (show m.length = 0 by omega)]
      exact ⟨[], by simp, rfl⟩
    · rintro rfl
      exact hlt (by simp)
  · exact ⟨fun _ ↦ ⟨m, rfl, rfl⟩, fun hlt ↦ absurd (by simp) hlt⟩

/-- The reads are replied to as counted: the calls are the replies to the first
requests. -/
theorem serve_cases {texts : List Bytes} {requests : List HttpRequest}
    (htexts : List.Forall₂ IsKeepAliveGet texts requests) (reads : List (Bytes × Host))
    {hosts : List Host} (hhosts : ∀ read ∈ reads, read.2 ∈ hosts)
    {context context' : HttpContext} {buf buf' : Buffer} {calls : List ConnectionCall}
    {seen : Bytes} (hstands : StandsFor context buf seen)
    (hflat : seen ++ (reads.map Prod.fst).flatten = texts.flatten)
    (hok : serve context buf reads = .ok (context', buf', calls)) :
    calls.length = answered (texts.map List.length) seen.length
        (reads.map fun read ↦ read.1.length) ∧
      List.Forall₂ (IsReply hosts) calls (requests.take calls.length) ∧
      StandsFor context' buf' (texts.drop calls.length).flatten := by
  induction reads generalizing texts requests context buf calls seen with
  | nil =>
      cases hok
      rw [List.map_nil, List.flatten_nil, List.append_nil] at hflat
      exact ⟨by rw [List.map_nil, answered.eq_def]; rfl, .nil, hflat ▸ hstands⟩
  | cons read reads ih =>
      obtain ⟨data, host⟩ := read
      obtain ⟨hhost, hhosts'⟩ := List.forall_mem_cons.mp hhosts
      obtain ⟨buf₁, context₂, buf₂, calls₁, calls₂, hpeek, hmessage, hserve, rfl⟩ := serve_cons hok
      have hparse : context.parse buf₁.peek = parse {} (seen ++ data) := by
        rw [hpeek, hstands.parse data]
      simp only [List.map_cons, List.flatten_cons, ← List.append_assoc] at hflat
      cases htexts with
      | nil =>
          -- no request is left, so nothing is read
          obtain ⟨hnow, hlater⟩ := List.append_eq_nil_iff.mp hflat
          rw [hnow] at hparse
          obtain ⟨rfl, hpeek₂, rfl⟩ := onMessage_nothing hparse hmessage
          obtain ⟨hcount, hreplies, hrest⟩ := ih .nil hhosts'
            (.inl ⟨rfl, hpeek₂⟩) hlater hserve
          have hzero : calls₂.length = 0 := by
            rw [hcount]
            exact Nat.le_zero.mp (answered_le_length _ _ _)
          refine ⟨?_, hreplies, hrest⟩
          rw [List.nil_append, hzero, List.map_cons, List.map_nil, answered]
      | @cons text r texts requests htext htexts =>
          rw [List.flatten_cons] at hflat
          obtain ⟨hreaches, hshort⟩ := append_eq_append_of_length hflat
          rw [List.length_append] at hreaches hshort
          by_cases hle : text.length ≤ seen.length + data.length
          · obtain ⟨rest, hsplit, hrest⟩ := hreaches hle
            rw [hsplit] at hparse
            obtain ⟨rfl, hpeek₂, body, close, hreply, rfl⟩ :=
              onMessage_reply htext hparse hmessage
            obtain ⟨hcount, hreplies, hend⟩ := ih htexts hhosts'
              (.inl ⟨rfl, hpeek₂⟩) hrest.symm hserve
            have hlength := congrArg List.length hsplit
            rw [List.length_append, List.length_append] at hlength
            have hrest_length : seen.length + data.length - text.length = rest.length := by omega
            refine ⟨?_, .cons ⟨host, hhost, body, close, hreply, rfl⟩ hreplies, hend⟩
            simp only [List.map_cons, answered, if_pos hle, List.singleton_append,
              List.length_cons, hcount, hrest_length]
          · obtain ⟨y, hsplit, hy, -⟩ := hshort hle
            obtain ⟨hstands₂, rfl⟩ := onMessage_wait htext hsplit hy hparse hmessage
            obtain ⟨hcount, hreplies, hend⟩ := ih (.cons htext htexts) hhosts' hstands₂ hflat hserve
            refine ⟨?_, hreplies, hend⟩
            simp only [List.map_cons, answered, if_neg hle, List.nil_append, hcount,
              List.length_append]

/-- A text of requests is in time if at most `i` of them end within the last `i`
reads; that there are as many reads follows, since no request is empty. -/
theorem inTime_iff {texts : List Bytes} {requests : List HttpRequest}
    (htexts : List.Forall₂ IsKeepAliveGet texts requests) (rs : List Nat) :
    InTime (texts.map List.length) 0 rs ↔
      ∀ i < texts.length, ((texts.map List.length).take (texts.length - i)).sum ≤
        (rs.take (rs.length - i)).sum := by
  simp only [InTime, List.length_map, Nat.zero_add]
  refine ⟨fun h i hi ↦ (h i hi).2, fun h i hi ↦ ⟨?_, h i hi⟩⟩
  by_contra hle
  have hsum := h i hi
  rw [Nat.sub_eq_zero_of_le (Nat.le_of_not_lt hle), List.take_zero, List.sum_nil] at hsum
  cases htexts with
  | nil => cases hi
  | @cons text r texts requests htext htexts =>
      rw [List.map_cons, List.length_cons, Nat.succ_sub (Nat.le_of_lt_succ hi), List.take_succ_cons,
        List.sum_cons] at hsum
      have := List.length_pos_of_ne_nil (ne_nil_of_isKeepAliveGet htext)
      omega

/-- **One reply for each request.**  Requests that are delivered in some reads,
and whose `on_message` calls return, are each replied to, in order, with none left
in the buffer, if and only if for each `i` at most `i` of them end within the last
`i` reads. -/
theorem answersAll_iff (texts : List Bytes) (requests : List HttpRequest)
    (reads : List (Bytes × Host)) (context : HttpContext) (buf : Buffer)
    (calls : List ConnectionCall) (htexts : List.Forall₂ IsKeepAliveGet texts requests)
    (hflat : (reads.map Prod.fst).flatten = texts.flatten)
    (hok : serve {} (Buffer.ofSize kInitialSize) reads = .ok (context, buf, calls)) :
    AnswersAll (reads.map Prod.snd) requests calls buf ↔
      ∀ i < texts.length, ((texts.map List.length).take (texts.length - i)).sum ≤
        ((reads.map fun read ↦ read.1.length).take (reads.length - i)).sum := by
  obtain ⟨hcount, hreplies, hend⟩ := serve_cases htexts reads
    (fun read hread ↦ List.mem_map_of_mem hread) (.inl ⟨rfl, Buffer.peek_ofSize _⟩)
    (by simpa using hflat) hok
  have hin := inTime_iff htexts (reads.map fun read ↦ read.1.length)
  rw [List.length_map] at hin
  rw [← hin, ← answered_eq_length_iff, ← List.length_nil, ← hcount, List.length_map]
  constructor
  · rintro ⟨hall, -⟩
    rw [hall.length_eq, htexts.length_eq]
  · intro hlength
    rw [hlength, htexts.length_eq, List.take_length] at hreplies
    rw [hlength, List.drop_length, List.flatten_nil] at hend
    refine ⟨hreplies, ?_⟩
    rintro ⟨line, headers, rest, hhead⟩
    have htext := hhead.text
    rw [hend.peek_eq_nil] at htext
    exact absurd htext (by simp [crlf])

/-- A host without files, which goes through the header map in the order of the
list. -/
def Host.empty : Host := ⟨fun _ ↦ .notOpened, .listed⟩

/-- A GET request that keeps the connection alive. -/
def getRoot : Bytes := bytes "GET / HTTP/1.1\r\nConnection: keep-alive\r\n\r\n"

/-- What it says. -/
def getRootRequest : HttpRequest where
  requestLine := ⟨.kGet, bytes "/", bytes "index.html", [], .kHttp11⟩
  headers := [(bytes "Connection", bytes "keep-alive")]

theorem isKeepAliveGet_getRoot : IsKeepAliveGet getRoot getRootRequest := by
  have hheader : IsHeaderLine (bytes "Connection: keep-alive") :=
    ⟨bytes "Connection", bytes " keep-alive", by decide, 107, by decide, by decide⟩
  refine ⟨bytes "GET / HTTP/1.1", [bytes "Connection: keep-alive"],
    ⟨by decide +kernel, by decide +kernel, by decide,
      ⟨getRootRequest.requestLine, by decide +kernel, .inl rfl⟩,
      fun h hh ↦ List.mem_singleton.mp hh ▸ hheader, by decide⟩,
    by decide +kernel, rfl, by decide +kernel, bytes "Connection: keep-alive", by simp,
    by decide +kernel, by decide +kernel⟩

/-- Two requests in two reads. -/
theorem answersAll_iff_run :
    ∃ context buf calls, serve {} (Buffer.ofSize kInitialSize)
        [(getRoot ++ getRoot.take 20, .empty), (getRoot.drop 20, .empty)]
          = .ok (context, buf, calls) ∧
      AnswersAll [.empty, .empty] [getRootRequest, getRootRequest] calls buf := by
  obtain ⟨⟨context, buf, calls⟩, hok, -⟩ := exists_ok
    (serve {} (Buffer.ofSize kInitialSize)
      [(getRoot ++ getRoot.take 20, .empty), (getRoot.drop 20, .empty)])
    (fun _ ↦ true) (by decide +kernel)
  exact ⟨context, buf, calls, hok, (answersAll_iff [getRoot, getRoot] _ _ _ _ _
    (.cons isKeepAliveGet_getRoot (.cons isKeepAliveGet_getRoot .nil)) (by decide +kernel)
    hok).mpr (by decide +kernel)⟩

/-- Two requests in one read: the second waits in the buffer. -/
theorem not_answersAll :
    ∃ context buf calls, serve {} (Buffer.ofSize kInitialSize) [(getRoot ++ getRoot, .empty)]
        = .ok (context, buf, calls) ∧
      ¬ AnswersAll [.empty] [getRootRequest, getRootRequest] calls buf := by
  obtain ⟨⟨context, buf, calls⟩, hok, hlength⟩ := exists_ok
    (serve {} (Buffer.ofSize kInitialSize) [(getRoot ++ getRoot, .empty)])
    (fun out ↦ decide (out.2.2.length = 1)) (by decide +kernel)
  refine ⟨context, buf, calls, hok, ?_⟩
  intro h
  have htwo := h.1.length_eq
  rw [of_decide_eq_true hlength] at htwo
  cases htwo

end Wuduo.Http
