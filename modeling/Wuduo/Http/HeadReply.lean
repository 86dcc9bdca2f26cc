import Wuduo.Http.KeepAlive
import Wuduo.Http.RequestLine
import Wuduo.Http.Spelling
import Wuduo.Lib.Both

/-!
# Replies to HEAD

HTTP wants a HEAD request replied to with the head of what a GET request would be
replied to with.  The parser accepts HEAD as a method of its own, but once the request
line is parsed the method is looked at no more than to see that it is not POST.  So the
two requests get the same reply, its body included, whatever becomes of them
(`replied_alike`); on a connection that is kept alive the body is where a client expects
the next reply (`not_headOnly`).

The proof follows two connections that differ in the word for the method: their buffers
until the request line is cut off, their requests until the reply, and nothing behind
it (`Twins`).
-/

namespace Wuduo.Http

open HttpContext RequestLine Search

/-! ## Request lines that differ in the method -/

/-- Two lines that begin with accepted methods and go on alike are parsed alike, but for
the method. -/
theorem fromLine_method {m m' : Bytes} {method method' : Method} (hm : (m, method) ∈ methodNames)
    (hm' : (m', method') ∈ methodNames) (l : Bytes) :
    fromLine (m' ++ 32 :: l) =
      (fromLine (m ++ 32 :: l)).map (Option.map fun r ↦ { r with method := method' }) := by
  have htext {w : Bytes} {k : Method} (hw : (w, k) ∈ methodNames) :
      cutWord (text (w ++ 32 :: l)) = some (w, text l) := by
    obtain ⟨hspace, hcr⟩ := not_mem_of_mem_methodNames hw
    refine cutWord_eq_some_iff.mpr ⟨?_, hspace⟩
    have hall : ∀ b ∈ w, decide (b ≠ 13) = true := fun b hb ↦
      decide_eq_true fun heq ↦ hcr (heq ▸ hb)
    rw [text, List.takeWhile_append_of_pos hall, List.takeWhile_cons_of_pos (by decide), text]
  simp only [fromLine_eq, htext hm, htext hm']
  split
  · rfl
  · split
    · rfl
    · rename_i url version hcut
      split
      · rfl
      · rw [fromParts, fromParts, methodFrom_eq_some_iff.mpr hm, methodFrom_eq_some_iff.mpr hm']
        cases pathAndQueryFrom url with
        | error e => rfl
        | ok parts =>
            simp only [ok_bind]
            cases versionFrom version <;> rfl

/-- The requests are the same in what a reply depends on, and none is a POST. -/
structure HttpRequest.Alike (r r' : HttpRequest) : Prop where
  path : r.path = r'.path
  headers : r.headers = r'.headers
  noPost : r.method ≠ .kPost
  noPost' : r'.method ≠ .kPost

/-- The contexts and the unread bytes of two connections, the first of which got HEAD
where the second got GET. -/
inductive Twins : HttpContext → Bytes → HttpContext → Bytes → Prop where
  | unread (rest : Bytes) : Twins {} (bytes "HEAD" ++ 32 :: rest) {} (bytes "GET" ++ 32 :: rest)
  | read {phase : ParsingPhase} {r r' : HttpRequest} (h : r.Alike r')
      (hphase : phase ≠ .kRequestLine) (s : Bytes) : Twins ⟨phase, r⟩ s ⟨phase, r'⟩ s
  | replied (c : HttpContext) (s : Bytes) : Twins c s c s

theorem Twins.append {c c' : HttpContext} {s s' : Bytes} (h : Twins c s c' s') (x : Bytes) :
    Twins c (s ++ x) c' (s' ++ x) := by
  cases h with
  | unread rest =>
      rw [List.append_assoc, List.append_assoc, List.cons_append]
      exact .unread (rest ++ x)
  | read h hphase => exact .read h hphase _
  | replied => exact .replied _ _

/-! ## Parsing -/

/-- What the body of `parse_request` does last, on either connection. -/
inductive NextTwins : Next Bytes → Next Bytes → Prop where
  | return (result : Bool) {c c' : HttpContext} {s s' : Bytes} (h : Twins c s c' s') :
      NextTwins (.return result c s) (.return result c' s')
  | again {c c' : HttpContext} {s s' : Bytes} (h : Twins c s c' s') :
      NextTwins (.again c s) (.again c' s')

theorem NextTwins.refl (next : Next Bytes) : NextTwins next next := by
  cases next with
  | «return» result c s => exact .return result (.replied c s)
  | again c s => exact .again (.replied c s)

theorem cutLine_method {m : Bytes} {method : Method} (hm : (m, method) ∈ methodNames)
    (rest : Bytes) :
    cutLine (m ++ 32 :: rest) = (cutLine rest).map fun cut ↦ (m ++ 32 :: cut.1, cut.2) := by
  have hcr : 13 ∉ m ++ [32] := by simp [(not_mem_of_mem_methodNames hm).2]
  have happend : m ++ 32 :: rest = (m ++ [32]) ++ rest := by simp
  rw [cutLine, cutLine, happend, crlf, find_append_of_not_mem hcr, Option.map_map, Option.map_map]
  refine congrArg (Option.map · _) (funext fun n ↦ ?_)
  simp only [Function.comp_apply, Nat.add_assoc, List.take_length_add_append,
    List.drop_length_add_append]
  rw [List.append_assoc]
  rfl

theorem head_mem : (bytes "HEAD", Method.kHead) ∈ methodNames := by decide +kernel

theorem get_mem : (bytes "GET", Method.kGet) ∈ methodNames := by decide +kernel

/-- The request lines of the two connections are accepted alike. -/
theorem setRequestLineFrom_twins (line : Bytes) :
    Both (fun o o' ↦ o = none ∧ o' = none ∨
        ∃ r r' : HttpRequest, o = some r ∧ o' = some r' ∧ r.Alike r')
      (({} : HttpRequest).setRequestLineFrom (bytes "HEAD" ++ 32 :: line))
      (({} : HttpRequest).setRequestLineFrom (bytes "GET" ++ 32 :: line)) := by
  have hhead := fromLine_method get_mem head_mem line
  have hget := fromLine_method get_mem get_mem line
  rw [HttpRequest.setRequestLineFrom, HttpRequest.setRequestLineFrom, hhead]
  cases hline : fromLine (bytes "GET" ++ 32 :: line) with
  | error e => exact .error e
  | ok o =>
      cases o with
      | none => exact .ok (.inl ⟨rfl, rfl⟩)
      | some r =>
          rw [hline] at hget
          have hmethod : r.method = .kGet := by
            have h := Option.some.inj (Except.ok.inj hget)
            rw [h]
          refine .ok (.inr ⟨_, _, rfl, rfl, rfl, rfl, ?_, ?_⟩)
          · exact fun h ↦ by cases h
          · intro h
            cases hmethod.symm.trans h

theorem addHeaderFrom_twins {r r' : HttpRequest} (h : r.Alike r') (line : Bytes) :
    r.addHeaderFrom line = none ∧ r'.addHeaderFrom line = none ∨
      ∃ s s' : HttpRequest, r.addHeaderFrom line = some s ∧ r'.addHeaderFrom line = some s' ∧
        s.Alike s' := by
  have hget (key : Bytes) : r.getHeader key = r'.getHeader key := by
    rw [HttpRequest.getHeader, HttpRequest.getHeader, h.headers]
  cases hheader : HttpRequest.headerFrom line with
  | none => exact .inl ⟨by rw [HttpRequest.addHeaderFrom, hheader]; rfl,
      by rw [HttpRequest.addHeaderFrom, hheader]; rfl⟩
  | some entry =>
      obtain ⟨key, value⟩ := entry
      cases hkey : r.getHeader key with
      | some v =>
          have hkey' := (hget key).symm.trans hkey
          left
          constructor
          · simp only [HttpRequest.addHeaderFrom, hheader, hkey, bind, Option.bind,
              Option.isSome_some, if_true]
          · simp only [HttpRequest.addHeaderFrom, hheader, hkey', bind, Option.bind,
              Option.isSome_some, if_true]
      | none =>
          have hkey' := (hget key).symm.trans hkey
          right
          refine ⟨_, _, HttpRequest.addHeaderFrom_eq_some_iff.mpr ⟨key, value, hheader, hkey, rfl⟩,
            HttpRequest.addHeaderFrom_eq_some_iff.mpr ⟨key, value, hheader, hkey', rfl⟩, ?_⟩
          exact ⟨h.path, by rw [h.headers], h.noPost, h.noPost'⟩

/-- **One phase, on either connection.** -/
theorem phaseStep_twins {c c' : HttpContext} {s s' : Bytes} (h : Twins c s c' s') :
    Both NextTwins (c.phaseStep s) (c'.phaseStep s') := by
  cases h with
  | replied => exact .refl NextTwins.refl _
  | unread rest =>
      simp only [phaseStep, cutLine_method head_mem, cutLine_method get_mem]
      cases cutLine rest with
      | none => exact .ok (.return true (.unread rest))
      | some cut =>
          obtain ⟨line, behind⟩ := cut
          have hset := setRequestLineFrom_twins line
          simp only [Option.map_some]
          generalize ({} : HttpRequest).setRequestLineFrom (bytes "HEAD" ++ 32 :: line) = x at hset
          generalize ({} : HttpRequest).setRequestLineFrom (bytes "GET" ++ 32 :: line) = y at hset
          cases hset with
          | error e => exact .error e
          | ok hor =>
              rcases hor with ⟨rfl, rfl⟩ | ⟨r, r', rfl, rfl, halike⟩
              · exact .ok (.return false (.unread rest))
              · simp only
                split
                · exact .error _
                · exact .ok (.again (.read halike (by decide) behind))
  | @read phase r r' halike hphase =>
      cases phase with
      | kRequestLine => exact absurd rfl hphase
      | kHeaderLines =>
          simp only [phaseStep]
          cases cutLine s with
          | none => exact .ok (.return true (.read halike (by decide) s))
          | some cut =>
              obtain ⟨line, behind⟩ := cut
              simp only
              split
              · exact .ok (.again (.read halike (by decide) behind))
              · rcases addHeaderFrom_twins halike line with ⟨h, h'⟩ | ⟨q, q', h, h', hq⟩
                · rw [h, h']
                  exact .ok (.return false (.read halike (by decide) s))
                · rw [h, h']
                  exact .ok (.again (.read hq (by decide) behind))
      | kEntityBody =>
          simp only [phaseStep, if_pos halike.noPost, if_pos halike.noPost']
          exact .ok (.return true (.read halike (by decide) s))
      | kCompleted => exact .ok (.return true (.read halike (by decide) s))

/-- **Parsing, on either connection.** -/
theorem parse_twins {c c' : HttpContext} {s s' : Bytes} (h : Twins c s c' s') :
    Both (fun o o' ↦ o.1 = o'.1 ∧ Twins o.2.1 o.2.2 o'.2.1 o'.2.2) (c.parse s) (c'.parse s') := by
  fun_induction parse c s generalizing c' s' with
  | case1 c s e hstep =>
      have hboth := phaseStep_twins h
      rw [hstep] at hboth
      generalize hstep' : c'.phaseStep s' = y at hboth
      cases hboth
      rw [parse_of_error hstep']
      exact .error e
  | case2 c s result d t hstep =>
      have hboth := phaseStep_twins h
      rw [hstep] at hboth
      generalize hstep' : c'.phaseStep s' = y at hboth
      cases hboth with
      | ok hnext =>
          cases hnext with
          | «return» _ htwins =>
              rw [parse_of_return hstep']
              exact .ok ⟨rfl, htwins⟩
  | case3 c s d t hstep ih =>
      have hboth := phaseStep_twins h
      rw [hstep] at hboth
      generalize hstep' : c'.phaseStep s' = y at hboth
      cases hboth with
      | ok hnext =>
          cases hnext with
          | again htwins =>
              rw [parse_of_again hstep']
              exact ih htwins

/-! ## Replying -/

theorem reply_alike {r r' : HttpRequest} (h : r.Alike r') (host : Host) :
    HttpServer.reply host r = HttpServer.reply host r' := by
  have hclose : r.isCloseConnection = r'.isCloseConnection :=
    isCloseConnection_congr (by rw [HttpRequest.getHeader, HttpRequest.getHeader, h.headers])
  have hopened : openedPath r = openedPath r' := congrArg cString h.path
  simp only [HttpServer.reply, HttpResponse.analyse, hclose, hopened, h.path]

theorem onCompleted_twins {c c' : HttpContext} {s s' : Bytes} (h : Twins c s c' s') (host : Host) :
    Both (fun o o' ↦ o.2 = o'.2 ∧ Twins o.1 s o'.1 s') (HttpServer.onCompleted host c)
      (HttpServer.onCompleted host c') := by
  cases h with
  | unread rest => exact .ok ⟨rfl, .unread rest⟩
  | @read phase r r' halike hphase =>
      rw [HttpServer.onCompleted, HttpServer.onCompleted, reply_alike halike]
      split
      · cases HttpServer.reply host r' with
        | error e => exact .error e
        | ok out => exact .ok ⟨rfl, .replied _ _⟩
      · exact .ok ⟨rfl, .read halike hphase s⟩
  | replied =>
      cases HttpServer.onCompleted host c with
      | error e => exact .error e
      | ok out => exact .ok ⟨rfl, .replied _ _⟩

/-- **One call of `on_message`, on either connection.** -/
theorem onMessage_twins {c c' : HttpContext} {buf buf' : Buffer}
    (h : Twins c buf.peek c' buf'.peek) (host : Host) :
    Both (fun o o' ↦ o.2.2 = o'.2.2 ∧ Twins o.1 o.2.1.peek o'.1 o'.2.1.peek)
      (HttpServer.onMessage host c buf) (HttpServer.onMessage host c' buf') := by
  have hparse := parse_twins h
  generalize hx : c.parse buf.peek = x at hparse
  generalize hy : c'.parse buf'.peek = y at hparse
  cases hparse with
  | error e =>
      rw [HttpServer.onMessage, HttpServer.onMessage, parseRequest_of_error hx,
        parseRequest_of_error hy]
      exact .error e
  | @ok out out' hout =>
      obtain ⟨result, d, t⟩ := out
      obtain ⟨result', d', t'⟩ := out'
      obtain ⟨rfl, htwins⟩ := hout
      obtain ⟨b, hb, rfl⟩ := parseRequest_of_ok hx
      obtain ⟨b', hb', rfl⟩ := parseRequest_of_ok hy
      rw [HttpServer.onMessage, HttpServer.onMessage, hb, hb']
      refine Both.ok_bind ?_
      -- the calls for a request that is refused are a matter of the value returned
      refine Both.bind (Both.refl (R := Eq) (fun _ ↦ rfl) _) ?_
      rintro errorCalls _ rfl
      refine Both.bind (onCompleted_twins htwins host) ?_
      rintro ⟨e, calls⟩ ⟨e', _⟩ ⟨rfl, he⟩
      exact .ok ⟨rfl, he⟩

theorem serve_twins (reads : List (Bytes × Host)) {c c' : HttpContext} {buf buf' : Buffer}
    (h : Twins c buf.peek c' buf'.peek) :
    Both (fun o o' ↦ o.2.2 = o'.2.2) (serve c buf reads) (serve c' buf' reads) := by
  induction reads generalizing c c' buf buf' with
  | nil => exact .ok rfl
  | cons read reads ih =>
      obtain ⟨data, host⟩ := read
      obtain ⟨b, hb, hpeek⟩ := buf.readFd_read_spec data
      obtain ⟨b', hb', hpeek'⟩ := buf'.readFd_read_spec data
      have htwins : Twins c b.peek c' b'.peek := by
        rw [hpeek, hpeek']
        exact h.append data
      rw [serve, serve, hb, hb']
      refine Both.ok_bind ?_
      refine Both.bind (onMessage_twins htwins host) ?_
      rintro ⟨d, b₁, calls⟩ ⟨d', b₁', _⟩ ⟨rfl, hd⟩
      refine Both.bind (ih hd) ?_
      rintro ⟨e, b₂, calls'⟩ ⟨e', b₂', _⟩ rfl
      exact .ok rfl

/-- The calls that are made on a connection whose buffer is empty when a request with this
method comes in, with `rest` behind the word for it, and then these reads. -/
def callsFor (method : Bytes) (buf : Buffer) (rest : Bytes) (host : Host)
    (reads : List (Bytes × Host)) : Except NoReturn (List ConnectionCall) :=
  (serve {} buf ((method ++ 32 :: rest, host) :: reads)).map fun out ↦ out.2.2

/-- **HEAD is replied to as GET is.**  Whatever target, header lines and more follow the
method, complete or not, whatever the files are and whatever is read afterwards, the same
bytes are sent for HEAD as for GET, and the connection is closed at the same time. -/
theorem replied_alike (buf : Buffer) (hbuf : buf.peek = []) (rest : Bytes) (host : Host)
    (reads : List (Bytes × Host)) :
    callsFor (bytes "HEAD") buf rest host reads = callsFor (bytes "GET") buf rest host reads := by
  obtain ⟨b, hb, hpeek⟩ := buf.readFd_read_spec (bytes "HEAD" ++ 32 :: rest)
  obtain ⟨b', hb', hpeek'⟩ := buf.readFd_read_spec (bytes "GET" ++ 32 :: rest)
  have htwins : Twins {} b.peek {} b'.peek := by
    rw [hpeek, hpeek', hbuf]
    exact .unread rest
  rw [callsFor, callsFor, serve, serve, hb, hb']
  refine Both.map_eq (R := fun o o' ↦ o.2.2 = o'.2.2) (Both.ok_bind ?_) fun _ _ ↦ id
  refine Both.bind (onMessage_twins htwins host) ?_
  rintro ⟨d, b₁, calls⟩ ⟨d', b₁', _⟩ ⟨rfl, hd⟩
  refine Both.bind (serve_twins reads hd) ?_
  rintro ⟨e, b₂, calls'⟩ ⟨e', b₂', _⟩ rfl
  exact .ok rfl

/-- What is sent up to the empty line that ends the headers. -/
def ConnectionCall.headOnly : ConnectionCall → ConnectionCall
  | .send data => .send ((find (crlf ++ crlf) data).elim data fun n ↦ data.take (n + 4))
  | .shutdown => .shutdown

/-- A host on which each file has one byte. -/
def oneByteHost : Host := ⟨fun _ ↦ .opened 1 [.read [65]], .listed⟩

/-- A page of one byte, on a connection that is kept alive, and then a page that is not
found. -/
theorem replied_alike_run :
    callsFor (bytes "HEAD") (Buffer.ofSize 0)
        (bytes "/a HTTP/1.1\r\nConnection: keep-alive\r\n\r\n") oneByteHost
        [(getRoot, .empty)] =
      callsFor (bytes "GET") (Buffer.ofSize 0)
        (bytes "/a HTTP/1.1\r\nConnection: keep-alive\r\n\r\n") oneByteHost
        [(getRoot, .empty)] :=
  replied_alike (Buffer.ofSize 0) (Buffer.peek_ofSize 0) _ _ _

/-- The reply to a HEAD request ends with the page. -/
theorem not_headOnly :
    ¬ callsFor (bytes "HEAD") (Buffer.ofSize 0)
        (bytes "/a HTTP/1.1\r\nConnection: keep-alive\r\n\r\n") oneByteHost [] =
      (callsFor (bytes "GET") (Buffer.ofSize 0)
        (bytes "/a HTTP/1.1\r\nConnection: keep-alive\r\n\r\n") oneByteHost []).map
          fun calls ↦ calls.map ConnectionCall.headOnly := by
  decide +kernel

end Wuduo.Http
