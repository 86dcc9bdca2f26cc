import Wuduo.Http.Cutting
import Wuduo.Http.HttpServer
import Wuduo.Http.Serving
import Wuduo.TcpConnection.Input
import Wuduo.TcpConnection.Watching

/-!
# Parse errors are final

A request that cannot be parsed is replied to once, and that is the end of what the
connection accepts.

The parser itself remembers nothing of an error: the next call finds the same phase,
the same request and a longer buffer, and fails at the same place
(`HttpContext.parse_false_append`).  That there is one reply is due to the connection,
which is not connected behind the call of `shutdown()` that follows the reply.  So the
two are put together here: a `Connection` is the session of a connection with the
context its bytes are parsed into, and its steps are those of the session, of which one
delivers bytes and calls `on_message`.
-/

namespace Wuduo.Http

open TcpConnection Transition

/-! ## Connections of the server -/

/-- A connection of the HTTP server. -/
structure Connection where
  session : Session
  /-- what `context()` holds -/
  context : HttpContext
deriving DecidableEq, Repr

namespace Connection

inductive Event where
  /-- `handle_read` delivers bytes, and `on_message` is called; `answer` is what
  `::write` answers if something is sent -/
  | message (data : Bytes) (host : Host) (answer : WriteResult)
  /-- a step of the session in which there is nothing to parse -/
  | other (action : Action)

/-- A connection on which nothing has happened yet. -/
def new (sockfd : Nat) : Connection := ⟨Session.new sockfd, {}⟩

/-- The calls of `on_message` are made in the loop thread. -/
def actionOf (answer : WriteResult) : ConnectionCall → Action
  | .send data => .send .loop data answer
  | .shutdown => .shutdown .loop

/-- Nothing is read, and the input buffer is left to `on_message`. -/
def isOther : Action → Bool
  | .handleRead (.read data) => data = []
  | .setInBuffer _ => false
  | _ => true

/-- `on_message`, and what its calls do to the connection. -/
def onMessage (c : Connection) (host : Host) (answer : WriteResult) :
    Option (Except NoReturn Connection) :=
  match HttpServer.onMessage host c.context c.session.conn.inBuffer with
  | .error e => some (.error e)
  | .ok (context, buf, calls) =>
      (run (liftAbort Session.step) (.ok c.session)
        (.setInBuffer buf :: calls.map (actionOf answer))).map fun r ↦
          r.map fun session ↦ { session, context }

/-- The transition function.  The connection callback sets a new context when the
connection is established. -/
def step (c : Connection) : Event → Option (Except NoReturn Connection)
  | .message data host answer =>
      if data = [] then none
      else (c.session.step (.handleRead (.read data))).bind fun
        | .error e => some (.error e)
        | .ok session => onMessage { c with session } host answer
  | .other action =>
      if isOther action then
        (c.session.step action).map fun r ↦ r.map fun session ↦
          { session, context := if action = .established then {} else c.context }
      else none

/-- A run of a connection of the server. -/
abbrev Run (sockfd : Nat) (es : List Event) (r : Except NoReturn Connection) : Prop :=
  run (liftAbort step) (.ok (new sockfd)) es = some r

/-- The bytes are such that `parse_request` returns false. -/
def Refuses (c : Connection) (data : Bytes) : Prop :=
  ∃ n buf context buf', c.session.conn.inBuffer.readFd (.read data) = .ok (n, buf) ∧
    c.context.parseRequest buf = .ok (false, context, buf')

/-! ## The parser -/

theorem parse_of_parseRequest {c c' : HttpContext} {buf buf' : Buffer} {result : Bool}
    (h : c.parseRequest buf = .ok (result, c', buf')) :
    c.parse buf.peek = .ok (result, c', buf'.peek) := by
  rw [← c.parseRequest_peek buf, h]
  rfl

/-- A request that is refused is not complete. -/
theorem phase_of_parse_false {c c' : HttpContext} {s s' : Bytes}
    (h : c.parse s = .ok (false, c', s')) : c'.phase ≠ .kCompleted := by
  intro hphase
  have hagain := HttpContext.parse_false_append h []
  rw [HttpContext.parse_of_completed hphase] at hagain
  cases hagain

/-- Whatever pieces are appended, each of them is refused. -/
theorem feed_of_parse_false {c : HttpContext} {buf : Buffer}
    (h : c.parse buf.peek = .ok (false, c, buf.peek)) (pieces : List Bytes) :
    ∃ buf', HttpContext.feed c buf (some false) pieces = .ok (some false, c, buf') ∧
      buf'.peek = buf.peek ++ pieces.flatten := by
  induction pieces generalizing buf with
  | nil => exact ⟨buf, rfl, (List.append_nil _).symm⟩
  | cons piece pieces ih =>
      obtain ⟨buf₁, happend, hpeek₁⟩ := buf.append_spec piece
      have hparse := HttpContext.parse_false_append h piece
      rw [← hpeek₁] at hparse
      obtain ⟨buf₂, hrequest, hpeek₂⟩ := HttpContext.parseRequest_of_ok hparse
      rw [← hpeek₂] at hparse
      obtain ⟨buf', hfeed, hpeek'⟩ := ih hparse
      refine ⟨buf', bind_eq_ok.mpr ⟨buf₁, happend, bind_eq_ok.mpr ⟨_, hrequest, hfeed⟩⟩, ?_⟩
      rw [hpeek', hpeek₂, hpeek₁, List.flatten_cons, List.append_assoc]

/-! ## The reply -/

/-- The reply says 400. -/
theorem badRequest_spec (host : Host) :
    ∃ page, HttpServer.badRequest host = .ok page ∧
      (Reply.decode page).map Reply.status = some 400 := by
  obtain ⟨output, r, hok, hpeek, hheaders, hcode, hphrase, -⟩ :=
    HttpResponse.errorMessageWith_spec (.new true) host.iteration .k400BadRequest
  rw [HttpResponse.headers_new] at hheaders
  have hreadable : r.Readable := HttpResponse.readable_prepared
    (hphrase ▸ HttpResponse.isLine_phrase _) HttpResponse.isEntry_kDefault.value hheaders
  have hdecode := HttpResponse.decode_head hreadable host.iteration []
  rw [List.append_nil, ← hpeek] at hdecode
  refine ⟨output.peek, bind_eq_ok.mpr ⟨_, hok, rfl⟩, ?_⟩
  rw [hdecode, Option.map_some, hcode]
  rfl

/-- What `on_message` calls for a request that is refused. -/
theorem onMessage_of_parse_false {host : Host} {context context' : HttpContext} {buf : Buffer}
    {s : Bytes} (h : context.parse buf.peek = .ok (false, context', s)) {page : Bytes}
    (hpage : HttpServer.badRequest host = .ok page) :
    ∃ buf', buf'.peek = s ∧
      HttpServer.onMessage host context buf = .ok (context', buf', [.send page, .shutdown]) := by
  obtain ⟨buf', hrequest, hpeek⟩ := HttpContext.parseRequest_of_ok h
  refine ⟨buf', hpeek, ?_⟩
  simp only [HttpServer.onMessage, hrequest, HttpServer.onError, hpage, HttpServer.onCompleted,
    if_neg (phase_of_parse_false h), ok_bind, pure_eq_ok, Bool.false_eq_true,
    if_false, List.append_nil]

/-- The reply is accepted by a connection that is connected, which is not connected
afterwards. -/
theorem run_refusal {s : Session} {r : Except NoReturn Session} {buf : Buffer} {page : Bytes}
    {answer : WriteResult} (h : s.Inv) (hst : s.conn.state ≠ .kConnecting)
    (hrun : run (liftAbort Session.step) (.ok s)
      (.setInBuffer buf :: [ConnectionCall.send page, .shutdown].map (actionOf answer)) = some r) :
    ∃ s', r = .ok s' ∧ s'.Inv ∧ 2 ≤ s'.conn.state.rank ∧ s'.conn.inBuffer.peek = buf.peek ∧
      s'.accepted = s.accepted ++ if s.conn.state = .kConnected then [(.loop, page)] else [] := by
  obtain ⟨r₁, hset, hrun⟩ := run_ok_cons_eq_some.mp hrun
  obtain ⟨s₁, rfl, hinv₁⟩ := Session.step_inv s _ r₁ h hset
  have hstate₁ : s₁.conn.state = s.conn.state := by
    rw [← Except.ok.inj (Option.some.inj hset)]
  have hacc₁ : s₁.accepted = s.accepted := by
    rw [← Except.ok.inj (Option.some.inj hset)]
  obtain ⟨r₂, hsend, hrun⟩ := run_ok_cons_eq_some.mp hrun
  obtain ⟨s₂, rfl, hinv₂⟩ := Session.step_inv s₁ _ r₂ hinv₁ hsend
  obtain ⟨r₃, hshutdown, hrun⟩ := run_ok_cons_eq_some.mp hrun
  obtain ⟨s₃, rfl, hinv₃⟩ := Session.step_inv s₂ _ r₃ hinv₂ hshutdown
  have hst₂ : s₂.conn.state ≠ .kConnecting := by
    intro hc
    have hrank := Session.step_rank_le hinv₁ hsend
    rw [hstate₁, hc] at hrank
    revert hst
    cases hs : s.conn.state <;> simp_all [TcpConnection.State.rank]
  refine ⟨s₃, (Option.some.inj hrun).symm, hinv₃, Session.rank_shutdown hinv₂ hst₂ hshutdown,
    ?_, ?_⟩
  · calc s₃.conn.inBuffer.peek = s₂.conn.inBuffer.peek := Session.step_inBuffer hshutdown
      _ = s₁.conn.inBuffer.peek := Session.step_inBuffer hsend
      _ = buf.peek := Session.step_inBuffer hset
  · rw [(Session.step_effect hinv₂ hshutdown).2, (Session.step_effect hinv₁ hsend).2,
      Session.acceptedBy_of_nil (a := actionOf answer .shutdown) rfl, List.append_nil, hacc₁,
      Session.acceptedBy, hstate₁]
    rfl

/-! ## After an error -/

theorem inBufferAfter_of_isOther {s : Session} {action : Action} (h : isOther action = true) :
    s.inBufferAfter action = s.conn.inBuffer.peek := by
  cases action with
  | handleRead answer =>
      cases answer with
      | failed errno => exact List.append_nil _
      | read data =>
          rw [of_decide_eq_true h]
          exact List.append_nil _
  | setInBuffer inBuffer => cases h
  | _ => rfl

/-- What is in the buffer is refused, whatever follows it, and the connection is not
connected. -/
structure Failed (c : Connection) : Prop where
  inv : c.session.Inv
  rank_le : 2 ≤ c.session.conn.state.rank
  refused : c.context.parse c.session.conn.inBuffer.peek
    = .ok (false, c.context, c.session.conn.inBuffer.peek)

theorem ne_of_rank_le {s : TcpConnection.State} (h : 2 ≤ s.rank) :
    s ≠ .kConnecting ∧ s ≠ .kConnected := by
  cases s <;> simp_all [TcpConnection.State.rank]

/-- A read delivers its bytes, and changes nothing else. -/
theorem step_handleRead {s : Session} {data : Bytes} {r : Except NoReturn Session}
    (h : s.Inv) (hdata : data ≠ []) (hstep : s.step (.handleRead (.read data)) = some r) :
    ∃ s', r = .ok s' ∧ s'.Inv ∧ s'.conn.state = s.conn.state ∧ s'.accepted = s.accepted ∧
      s.conn.state ≠ .kConnecting ∧
      s'.conn.inBuffer.peek = s.conn.inBuffer.peek ++ data := by
  obtain ⟨s', rfl, hinv⟩ := Session.step_inv s _ r h hstep
  have hpeek := Session.step_inBuffer hstep
  rw [Session.step] at hstep
  split at hstep
  · cases hstep
  · rename_i hst
    obtain ⟨b, hok, -⟩ := Buffer.readFd_read_spec s.conn.inBuffer data
    have hlen := List.length_pos_of_ne_nil hdata
    simp only [handleRead, hok, ok_bind] at hstep
    rw [if_pos (by omega)] at hstep
    rw [← Except.ok.inj (Option.some.inj hstep)] at hinv hpeek ⊢
    exact ⟨_, rfl, hinv, rfl, rfl, hst, hpeek⟩

/-- A read that is refused.  The reply is accepted if the connection is connected. -/
theorem step_refused {c c' : Connection} {data s page : Bytes} {context : HttpContext} {host : Host}
    {answer : WriteResult} (h : c.session.Inv)
    (hparse : c.context.parse (c.session.conn.inBuffer.peek ++ data) = .ok (false, context, s))
    (hpage : HttpServer.badRequest host = .ok page)
    (hstep : c.step (.message data host answer) = some (.ok c')) :
    c'.Failed ∧ c'.context = context ∧ c'.session.accepted = c.session.accepted ++
      if c.session.conn.state = .kConnected then [(.loop, page)] else [] := by
  rw [step] at hstep
  split at hstep
  · cases hstep
  · rename_i hdata
    obtain ⟨r, hread, hstep⟩ := Option.bind_eq_some_iff.mp hstep
    obtain ⟨s₁, rfl, hinv, hstate, hacc, hst, hpeek⟩ := step_handleRead h hdata hread
    rw [← hpeek] at hparse
    obtain ⟨buf, hpeek₁, hmessage⟩ := onMessage_of_parse_false hparse hpage
    simp only [onMessage, hmessage] at hstep
    obtain ⟨r, hrun, hr⟩ := Option.map_eq_some_iff.mp hstep
    obtain ⟨s', rfl, hinv', hrank, hpeek', hacc'⟩ := run_refusal hinv (hstate ▸ hst) hrun
    cases hr
    have hagain := HttpContext.parse_false_append hparse []
    rw [List.append_nil, ← hpeek₁, ← hpeek'] at hagain
    exact ⟨⟨hinv', hrank, hagain⟩, rfl, by rw [hacc', hacc, hstate]⟩

/-- **No step undoes an error.**  Whatever is read is refused, and nothing is accepted. -/
theorem step_failed {c c' : Connection} {e : Event} (h : c.Failed)
    (hstep : c.step e = some (.ok c')) :
    c'.Failed ∧ c'.context = c.context ∧ c'.session.accepted = c.session.accepted := by
  obtain ⟨hconnecting, hconnected⟩ := ne_of_rank_le h.rank_le
  cases e with
  | message data host answer =>
      obtain ⟨page, hpage, -⟩ := badRequest_spec host
      obtain ⟨hfailed, hcontext, hacc⟩ := step_refused h.inv
        (HttpContext.parse_false_append h.refused data) hpage hstep
      rw [if_neg hconnected, List.append_nil] at hacc
      exact ⟨hfailed, hcontext, hacc⟩
  | other action =>
      rw [step] at hstep
      split at hstep
      · rename_i hother
        obtain ⟨r, hsession, hr⟩ := Option.map_eq_some_iff.mp hstep
        obtain ⟨s, rfl, hinv⟩ := Session.step_inv _ _ r h.inv hsession
        cases hr
        have hcontext : action ≠ .established := by
          rintro rfl
          rw [Session.step, if_neg hconnecting] at hsession
          cases hsession
        have hpeek : s.conn.inBuffer.peek = c.session.conn.inBuffer.peek := by
          rw [Session.step_inBuffer hsession]
          exact inBufferAfter_of_isOther hother
        have hacc := (Session.step_effect h.inv hsession).2
        rw [Session.acceptedBy, if_neg hconnected, List.append_nil] at hacc
        refine ⟨⟨hinv, Nat.le_trans h.rank_le (Session.step_rank_le h.inv hsession), ?_⟩,
          if_neg hcontext, hacc⟩
        show HttpContext.parse (if action = .established then {} else c.context)
          s.conn.inBuffer.peek =
            .ok (false, if action = .established then {} else c.context, s.conn.inBuffer.peek)
        rw [if_neg hcontext, hpeek]
        exact h.refused
      · cases hstep

/-- Every step keeps the invariant of the session. -/
theorem step_session_inv {c c' : Connection} {e : Event} (h : c.session.Inv)
    (hstep : c.step e = some (.ok c')) : c'.session.Inv := by
  cases e with
  | message data host answer =>
      rw [step] at hstep
      split at hstep
      · cases hstep
      · rename_i hdata
        obtain ⟨r, hread, hstep⟩ := Option.bind_eq_some_iff.mp hstep
        obtain ⟨s, rfl, hinv, -⟩ := step_handleRead h hdata hread
        dsimp only [onMessage] at hstep
        split at hstep
        · cases hstep
        · obtain ⟨r, hrun, hr⟩ := Option.map_eq_some_iff.mp hstep
          obtain ⟨s', rfl, hinv'⟩ := run_alive Session.step_inv hinv hrun
          cases hr
          exact hinv'
  | other action =>
      rw [step] at hstep
      split at hstep
      · obtain ⟨r, hsession, hr⟩ := Option.map_eq_some_iff.mp hstep
        obtain ⟨s, rfl, hinv⟩ := Session.step_inv _ _ r h hsession
        cases hr
        exact hinv
      · cases hstep

/-- **Parse errors are final.**  Where `parse_request` has returned false, it returns
false again whatever is appended to the buffer, and changes neither the context nor the
bytes that are there.  Over the runs of a connection, such an error has its reply
accepted if the connection is connected then, and nothing is accepted afterwards. -/
theorem parse_errors_final :
    (∀ (c c' : HttpContext) (buf buf' : Buffer), c.parseRequest buf = .ok (false, c', buf') →
      c'.phase ≠ .kCompleted ∧ ∀ pieces, ∃ buf'',
        HttpContext.feed c' buf' (some false) pieces = .ok (some false, c', buf'') ∧
          buf''.peek = buf'.peek ++ pieces.flatten) ∧
    ∀ (sockfd : Nat) (before after : List Event) (data : Bytes) (host : Host)
      (answer : WriteResult) (c c₁ c₂ : Connection),
      Run sockfd before (.ok c) → c.Refuses data →
      c.step (.message data host answer) = some (.ok c₁) →
      run (liftAbort step) (.ok c₁) after = some (.ok c₂) →
      c₂.context = c₁.context ∧ ∃ page, HttpServer.badRequest host = .ok page ∧
        (Reply.decode page).map Reply.status = some 400 ∧
        c₂.session.accepted = c.session.accepted ++
          if c.session.conn.state = .kConnected then [(.loop, page)] else [] := by
  constructor
  · intro c c' buf buf' h
    have hparse := parse_of_parseRequest h
    have hagain := HttpContext.parse_false_append hparse []
    rw [List.append_nil] at hagain
    exact ⟨phase_of_parse_false hparse, feed_of_parse_false hagain⟩
  · intro sockfd before after data host answer c c₁ c₂ hbefore hrefuses hstep hafter
    have hinv : c.session.Inv := run_ok_invariant (I := fun c ↦ c.session.Inv)
      (fun _ _ _ ↦ step_session_inv) (Session.inv_new sockfd) hbefore
    obtain ⟨n, buf, context, buf', hbuf, hrequest⟩ := hrefuses
    obtain ⟨buf₀, hbuf₀, hpeek⟩ := Buffer.readFd_read_spec c.session.conn.inBuffer data
    cases hbuf.symm.trans hbuf₀
    obtain ⟨page, hpage, hdecode⟩ := badRequest_spec host
    obtain ⟨hfailed, -, hacc⟩ :=
      step_refused hinv (hpeek ▸ parse_of_parseRequest hrequest) hpage hstep
    have hend : c₂.Failed ∧ c₂.context = c₁.context ∧
        c₂.session.accepted = c₁.session.accepted := by
      refine run_ok_invariant (I := fun c ↦ c.Failed ∧ c.context = c₁.context ∧
        c.session.accepted = c₁.session.accepted) ?_ ⟨hfailed, rfl, rfl⟩ hafter
      rintro d e d' ⟨hd, hcontext, haccepted⟩ he
      obtain ⟨hd', hcontext', haccepted'⟩ := step_failed hd he
      exact ⟨hd', hcontext'.trans hcontext, haccepted'.trans haccepted⟩
    exact ⟨hend.2.1, page, hpage, hdecode, hend.2.2.trans hacc⟩

/-- Whether the bytes are refused can be evaluated. -/
def refuses (c : Connection) (data : Bytes) : Bool :=
  (c.session.conn.inBuffer.readFd (.read data)).toOption.any fun read ↦
    (c.context.parseRequest read.2).toOption.any fun parsed ↦ !parsed.1

theorem refuses_of_eq_true {c : Connection} {data : Bytes} (h : c.refuses data = true) :
    c.Refuses data := by
  obtain ⟨⟨n, buf⟩, hread, h⟩ := exists_ok _ _ h
  obtain ⟨⟨result, context, buf'⟩, hparse, hresult⟩ := exists_ok _ _ h
  cases result with
  | true => cases hresult
  | false => exact ⟨n, buf, context, buf', hread, hparse⟩

/-- A request line without a path, and what follows it. -/
theorem parse_errors_final_run :
    ∃ c c₁ c₂ page, Run 7 [.other .established] (.ok c) ∧
      c.step (.message (bytes "GET\r\n") ⟨fun _ ↦ .notOpened, .listed⟩ (.wrote 9))
        = some (.ok c₁) ∧
      run (liftAbort step) (.ok c₁)
        [.message (bytes "GET") ⟨fun _ ↦ .notOpened, .listed⟩ (.wrote 9),
          .other (.handleWrite (.wrote 1000))] = some (.ok c₂) ∧
      (Reply.decode page).map Reply.status = some 400 ∧ c.session.conn.state = .kConnected ∧
      c₂.session.accepted = c.session.accepted ++ [(.loop, page)] := by
  let host : Host := ⟨fun _ ↦ .notOpened, .listed⟩
  obtain ⟨c, hrun, hc⟩ := exists_run_ok step (.ok (new 7)) [.other .established]
    (fun c ↦ c.refuses (bytes "GET\r\n") && decide (c.session.conn.state = .kConnected))
    (by decide +kernel)
  obtain ⟨c₂, hall, -⟩ := exists_run_ok step (.ok (new 7)) ([.other .established] ++
    [.message (bytes "GET\r\n") host (.wrote 9), .message (bytes "GET") host (.wrote 9),
      .other (.handleWrite (.wrote 1000))]) (fun _ ↦ true) (by decide +kernel)
  obtain ⟨r, hrun', hall⟩ := run_append_eq_some.mp hall
  cases hrun.symm.trans hrun'
  obtain ⟨r₁, hstep, hafter⟩ := run_ok_cons_eq_some.mp hall
  cases r₁ with
  | error e => cases hafter
  | ok c₁ =>
      obtain ⟨hrefuses, hst⟩ := Bool.and_eq_true_iff.mp hc
      obtain ⟨-, page, -, hdecode, hacc⟩ := parse_errors_final.2 7 _ _ _ _ _ c c₁ c₂ hrun
        (refuses_of_eq_true hrefuses) hstep hafter
      rw [if_pos (of_decide_eq_true hst)] at hacc
      exact ⟨c, c₁, c₂, page, hrun, hstep, hafter, hdecode, of_decide_eq_true hst, hacc⟩

end Connection

end Wuduo.Http
