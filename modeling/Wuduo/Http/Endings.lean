import Wuduo.Http.Server

/-!
# How a connection of the server ends

A reply that is to be the last one is followed by `shutdown()`, which shuts the socket down for
writing if nothing is pending.  If something is pending it is left to `handle_write`, which
never does it; the connection then ends when its peer closes it, as every connection does in
the end.

## Results

* `ends_behind_replies`: the peer that sees the end of the stream has got every reply up to the
  last one; and one that does not has got, at any time, a part of the replies from the front.
* `closed_by_peer`: only the end of file or an error on its socket closes a connection.
-/

namespace Wuduo

open Transition
open TcpConnection (Session)

/-! ## What is shut down for writing -/

namespace TcpConnection

/-- Nothing is pending on an open connection that has been shut down for writing. -/
def ShutIdle (c : TcpConnection) : Prop :=
  c.state ≠ .kDisconnected → c.socket.shutWr = true →
    c.state = .kDisconnecting ∧ c.channel.isWriting = false

/-- The end of file, or an error. -/
def closes : ReadResult → Bool
  | .read data => data = []
  | .failed errno => errno ≠ EAGAIN

section

variable {c c' : TcpConnection} {cbs : List Callback}

theorem closed_of_handleClose (h : c.handleClose = .ok (c', cbs)) :
    c'.state = .kDisconnected ∧ c'.socket = c.socket := by
  rw [handleClose] at h
  split at h
  · obtain ⟨channel, -, h⟩ := bind_eq_ok.mp h
    cases h
    exact ⟨rfl, rfl⟩
  · cases h

/-- `handle_read` writes nothing.  It closes the connection only for the end of file or an
error, and changes nothing but the input buffer otherwise. -/
theorem handleRead_cases {answer : ReadResult} (h : c.handleRead answer = .ok (c', cbs)) :
    c'.socket = c.socket ∧
      (c'.state = .kDisconnected ∧ closes answer = true ∨ ∃ b, c' = { c with inBuffer := b }) := by
  cases answer with
  | failed errno =>
      simp only [handleRead, Buffer.readFd, ok_bind] at h
      rw [if_neg (by decide), if_neg (by decide)] at h
      split at h
      · rename_i herrno
        rw [handleError, forceClose] at h
        split at h
        · rw [runInLoop, Task.run, if_pos (.inr rfl)] at h
          obtain ⟨hst, hsocket⟩ := closed_of_handleClose h
          exact ⟨hsocket, .inl ⟨hst, decide_eq_true herrno⟩⟩
        · cases h
          exact ⟨rfl, .inr ⟨c.inBuffer, rfl⟩⟩
      · cases h
        exact ⟨rfl, .inr ⟨c.inBuffer, rfl⟩⟩
  | read data =>
      obtain ⟨b, hok, -⟩ := Buffer.readFd_read_spec c.inBuffer data
      simp only [handleRead, hok, ok_bind] at h
      split at h
      · cases h
        exact ⟨rfl, .inr ⟨b, rfl⟩⟩
      · rename_i hlen
        rw [if_pos (by omega)] at h
        obtain ⟨hst, hsocket⟩ := closed_of_handleClose h
        have hdata : data = [] := List.length_eq_zero_iff.mp (by omega)
        exact ⟨hsocket, .inl ⟨hst, decide_eq_true hdata⟩⟩

theorem ShutIdle.of_eq (h : c.ShutIdle) (hst : c'.state = c.state)
    (hsocket : c'.socket.shutWr = c.socket.shutWr) (hchannel : c'.channel = c.channel) :
    c'.ShutIdle := by
  rw [ShutIdle, hst, hsocket, hchannel]
  exact h

/-- What is open and not shut down is left so. -/
theorem ShutIdle.of_shutWr (h : c.ShutIdle) (hst : c.state ≠ .kDisconnected)
    (hnot : ¬ (c.state = .kDisconnecting ∧ c.channel.isWriting = false))
    (hsocket : c'.socket.shutWr = c.socket.shutWr) : c'.ShutIdle := by
  intro _ hwr
  exact absurd (h hst (hsocket ▸ hwr)) hnot

end

end TcpConnection

namespace Http

namespace Connection

section

variable {s s' : Session} {c c' : Connection} {answer : WriteResult}

theorem shutIdle_call {call : ConnectionCall} (hidle : s.conn.ShutIdle)
    (hstep : s.step (actionOf answer call) = some (.ok s')) : s'.conn.ShutIdle := by
  by_cases hst : s.conn.state = .kConnected
  · cases call with
    | send data =>
        have hsend : s.conn.send data = some (.sendInLoop data) := if_neg (not_not.mpr hst)
        rw [actionOf, Session.step, hsend, Session.runInLoop, if_pos rfl] at hstep
        obtain ⟨conn, cbs, hrun, rfl⟩ := Session.exec_ok (Option.some.inj hstep)
        have hwr := (TcpConnection.Task.onward hrun).2 fun htask ↦ by cases htask
        exact hidle.of_shutWr (by simp [hst]) (by simp [hst]) hwr
    | shutdown =>
        have hshutdown : s.conn.shutdown = (s.conn.setState .kDisconnecting, some .shutdown) :=
          if_pos hst
        rw [actionOf, Session.step, hshutdown, Session.runInLoop, if_pos rfl] at hstep
        obtain ⟨conn, cbs, hrun, rfl⟩ := Session.exec_ok (Option.some.inj hstep)
        rw [TcpConnection.Task.run] at hrun
        split at hrun
        · -- output is pending, and the socket is left alone
          cases hrun
          exact hidle.of_shutWr (by simp [hst]) (by simp [hst]) rfl
        · rename_i hwriting
          cases hrun
          exact fun _ _ ↦ ⟨rfl, Bool.eq_false_iff.mpr hwriting⟩
  · rw [call_of_not_connected hst hstep]
    exact hidle

theorem shutIdle_calls {calls : List ConnectionCall} (hidle : s.conn.ShutIdle) (h : s.Inv)
    (hrun : run (liftAbort Session.step) (.ok s) (calls.map (actionOf answer)) = some (.ok s')) :
    s'.conn.ShutIdle := by
  induction calls generalizing s with
  | nil =>
      cases hrun
      exact hidle
  | cons call calls ih =>
      obtain ⟨r, hstep, hrun⟩ := run_ok_cons_eq_some.mp hrun
      obtain ⟨s₁, rfl, h₁⟩ := Session.step_inv s _ r h hstep
      exact ih (shutIdle_call hidle hstep) h₁ hrun

/-- **Every step shuts down only what has nothing pending.** -/
theorem shutIdle_step {e : Event} (hidle : c.session.conn.ShutIdle) (h : c.session.Inv)
    (hown : e.isOwn = true) (hstep : c.step e = some (.ok c')) : c'.session.conn.ShutIdle := by
  cases e with
  | message data host answer =>
      rw [step, Option.ite_none_left_eq_some] at hstep
      obtain ⟨hdata, hstep⟩ := hstep
      obtain ⟨r, hread, hstep⟩ := Option.bind_eq_some_iff.mp hstep
      obtain ⟨s₁, rfl, h₁⟩ := Session.step_inv _ _ r h hread
      obtain ⟨-, n, buf, -, hconn⟩ := read_spec hdata hread
      dsimp only [onMessage] at hstep
      split at hstep
      · cases hstep
      · rename_i context buf' calls hmessage
        obtain ⟨r, hrun, hr⟩ := Option.map_eq_some_iff.mp hstep
        obtain ⟨s', rfl, rfl⟩ := map_eq_ok.mp hr
        obtain ⟨r₂, hset, hrun⟩ := run_ok_cons_eq_some.mp hrun
        obtain ⟨s₂, rfl, h₂⟩ := Session.step_inv _ _ r₂ h₁ hset
        cases hset
        refine shutIdle_calls (hidle.of_eq ?_ ?_ ?_) h₂ hrun
        all_goals rw [hconn]
  | other action =>
      rw [step, Option.ite_none_right_eq_some] at hstep
      obtain ⟨hother, hstep⟩ := hstep
      obtain ⟨r, hsession, hr⟩ := Option.map_eq_some_iff.mp hstep
      obtain ⟨s', rfl, rfl⟩ := map_eq_ok.mp hr
      cases action with
      | established =>
          rw [Session.step, Option.ite_none_right_eq_some] at hsession
          obtain ⟨hst, hsession⟩ := hsession
          obtain ⟨d, hok, -, -, -, -, hsocket⟩ := TcpConnection.established_spec h.conn hst
          rw [hok] at hsession
          cases hsession
          exact hidle.of_shutWr (by simp [hst]) (by simp [hst])
            (congrArg Socket.shutWr hsocket)
      | handleRead answer =>
          rw [Session.step, Option.ite_none_left_eq_some] at hsession
          obtain ⟨r, hok, rfl⟩ := map_eq_ok.mp (Option.some.inj hsession.2)
          rcases (TcpConnection.handleRead_cases hok).2 with ⟨hst, -⟩ | ⟨b, hconn⟩
          · exact fun hne ↦ absurd hst hne
          · show r.1.ShutIdle
            rw [hconn]
            exact hidle.of_eq rfl rfl rfl
      | handleWrite answer =>
          obtain ⟨d, hok, -, hst, -, hwr⟩ := TcpConnection.handleWrite_spec h.conn answer
          rw [Session.step, hok] at hsession
          cases hsession
          intro hopen
          have hopen' : c.session.conn.state ≠ .kDisconnected := by rwa [← hst]
          cases hw : c.session.conn.channel.isWriting with
          | true => exact hidle.of_shutWr hopen' (by simp [hw]) hwr hopen
          | false =>
              rw [TcpConnection.handleWrite, hw] at hok
              cases hok
              exact hidle hopen
      | send | shutdown | forceClose | runTask | setInBuffer => cases hown

/-! ## What has gone out -/

/-- A step that leaves the connection closed has written nothing, and if it was not closed
before, the event is the end of file or an error. -/
theorem step_closed {e : Event} (h : c.session.Inv) (hown : e.isOwn = true)
    (hstep : c.step e = some (.ok c')) (hclosed : c'.session.conn.state = .kDisconnected) :
    c'.session.conn.socket = c.session.conn.socket ∧
      (c.session.conn.state = .kDisconnected ∨
        ∃ answer, e = .other (.handleRead answer) ∧ TcpConnection.closes answer = true) := by
  cases e with
  | message data host answer =>
      obtain ⟨n, buf, calls, -, -, -, -, hconnected, hother⟩ := step_message h hstep
      by_cases hst : c.session.conn.state = .kConnected
      · have hstate := (hconnected hst).1
        rw [hclosed] at hstate
        split at hstate <;> cases hstate
      · refine ⟨by rw [hother hst], .inl ?_⟩
        rw [← hclosed, hother hst]
  | other action =>
      rw [step, Option.ite_none_right_eq_some] at hstep
      obtain ⟨hother, hstep⟩ := hstep
      obtain ⟨r, hsession, hr⟩ := Option.map_eq_some_iff.mp hstep
      obtain ⟨s', rfl, rfl⟩ := map_eq_ok.mp hr
      cases action with
      | established =>
          rw [Session.step, Option.ite_none_right_eq_some] at hsession
          obtain ⟨hst, hsession⟩ := hsession
          obtain ⟨d, hok, -, hst', -⟩ := TcpConnection.established_spec h.conn hst
          rw [hok] at hsession
          cases hsession
          cases hst'.symm.trans hclosed
      | handleRead answer =>
          rw [Session.step, Option.ite_none_left_eq_some] at hsession
          obtain ⟨r, hok, rfl⟩ := map_eq_ok.mp (Option.some.inj hsession.2)
          obtain ⟨hsocket, hcases⟩ := TcpConnection.handleRead_cases hok
          refine ⟨hsocket, ?_⟩
          rcases hcases with ⟨-, hcloses⟩ | ⟨b, hconn⟩
          · exact .inr ⟨answer, rfl, hcloses⟩
          · left
            rw [← hclosed]
            show _ = r.1.state
            rw [hconn]
      | handleWrite answer =>
          obtain ⟨d, hok, -, hst, -⟩ := TcpConnection.handleWrite_spec h.conn answer
          rw [Session.step, hok] at hsession
          cases hsession
          have hclosed' : c.session.conn.state = .kDisconnected := hst.symm.trans hclosed
          rw [TcpConnection.handleWrite_of_closed h.conn hclosed'] at hok
          cases hok
          exact ⟨rfl, .inl hclosed'⟩
      | send | shutdown | forceClose | runTask | setInBuffer => cases hown

/-- A connection that is closed behind some events was closed before, or one of them closed it. -/
theorem closed_of_run {es : List Event} (h : c.session.Inv) (hown : ∀ e ∈ es, e.isOwn = true)
    (hrun : run (liftAbort step) (.ok c) es = some (.ok c'))
    (hclosed : c'.session.conn.state = .kDisconnected) :
    c.session.conn.state = .kDisconnected ∨
      ∃ answer, .other (.handleRead answer) ∈ es ∧ TcpConnection.closes answer = true := by
  induction es generalizing c with
  | nil =>
      cases hrun
      exact .inl hclosed
  | cons e es ih =>
      obtain ⟨he, hes⟩ := List.forall_mem_cons.mp hown
      obtain ⟨r, hstep, hrun⟩ := run_ok_cons_eq_some.mp hrun
      cases r with
      | error e => exact absurd hrun run_error_ne
      | ok c₁ =>
          rcases ih (step_session_inv h hstep) hes hrun with hst | ⟨answer, hmem, hcloses⟩
          · refine (step_closed h he hstep hst).2.imp_right ?_
            rintro ⟨answer, rfl, hcloses⟩
            exact ⟨answer, List.mem_cons_self, hcloses⟩
          · exact .inr ⟨answer, List.mem_cons_of_mem _ hmem, hcloses⟩

/-- What the socket has accepted is a part of the replies to these reads, from the front, and
all of them if it has been shut down for writing. -/
def Wrote (socket : Socket) (reads : List (Bytes × Host)) : Prop :=
  ∃ context buf calls, serve {} (Buffer.ofSize kInitialSize) reads = .ok (context, buf, calls) ∧
    socket.written <+: sentBefore calls ∧
    (socket.shutWr = true → .shutdown ∈ calls ∧ socket.written = sentBefore calls)

/-- What a connection has written, of the replies to what was read from it. -/
structure Tells (c : Connection) (reads : List (Bytes × Host)) : Prop where
  serves : c.Serves reads
  idle : c.session.conn.ShutIdle
  wrote : ∃ served, served <+: reads ∧
    (c.session.conn.state ≠ .kDisconnected → served = reads) ∧ Wrote c.session.conn.socket served

theorem Serves.wrote {reads : List (Bytes × Host)} (h : c.Serves reads)
    (hidle : c.session.conn.ShutIdle) (hopen : c.session.conn.state ≠ .kDisconnected) :
    Wrote c.session.conn.socket reads := by
  obtain ⟨calls, hserve, hstream, hshutdown, -⟩ := h.served hopen
  refine ⟨_, _, calls, hserve, ⟨_, hstream⟩, fun hwr ↦ ?_⟩
  obtain ⟨hst, hwriting⟩ := hidle hopen hwr
  have hpeek : c.session.conn.outputBuffer.peek = [] := by
    by_contra hne
    rw [(h.inv.conn.watched hopen).mpr hne] at hwriting
    cases hwriting
  rw [TcpConnection.stream, hpeek, List.append_nil] at hstream
  exact ⟨hshutdown.mp hst, hstream⟩

theorem tells_new (sockfd : Nat) : (new sockfd).Tells [] where
  serves := serves_new sockfd
  idle _ hwr := by cases hwr
  wrote :=
    ⟨[], List.prefix_rfl, fun _ ↦ rfl, _, _, [], rfl, List.nil_prefix, fun hwr ↦ by cases hwr⟩

theorem Tells.step {reads : List (Bytes × Host)} {e : Event} (h : c.Tells reads)
    (hown : e.isOwn = true) (hstep : c.step e = some (.ok c')) :
    c'.Tells (reads ++ e.read.toList) := by
  have hserves := h.serves.step hown hstep
  have hidle := shutIdle_step h.idle h.serves.inv hown hstep
  refine ⟨hserves, hidle, ?_⟩
  by_cases hclosed : c'.session.conn.state = .kDisconnected
  · obtain ⟨served, hserved, -, hwrote⟩ := h.wrote
    refine ⟨served, hserved.trans (List.prefix_append _ _), absurd hclosed, ?_⟩
    rwa [(step_closed h.serves.inv hown hstep hclosed).1]
  · exact ⟨_, List.prefix_rfl, fun _ ↦ rfl, hserves.wrote hidle hclosed⟩

end

end Connection

namespace HttpServer

open Connection (readsOf)

variable (workers : Nat) (as : List Action) (s : HttpServer) (c : Nat)

/-- **The end of the stream is behind the replies.**  In every run of the HTTP server, also when
the connection has been closed: what the socket of a connection has accepted is a part, from the
front, of the replies to what was read from it, up to its closing; and if the socket has been
shut down for writing, that was for a request that ends the connection, and all replies up to
this one have been written. -/
theorem ends_behind_replies (h : Run workers as (.ok s)) (hc : c < s.server.made) :
    ∃ reads, reads <+: readsOf (eventsOn c workers as) ∧
      ((s.server.conn c).state ≠ .kDisconnected → reads = readsOf (eventsOn c workers as)) ∧
      Connection.Wrote (s.server.conn c).socket reads := by
  obtain ⟨x, hrun, hx⟩ := exists_isConnection 0 c h
  obtain ⟨revents, hconn⟩ := hx.conn hc
  have htells := Connection.run_reads_invariant (fun _ _ _ _ h hown hstep ↦ h.step hown hstep)
    (Connection.tells_new 0) (isOwn_eventsOn c h) hrun
  have hwrote := htells.wrote
  rw [hconn] at hwrote
  exact hwrote

/-- A request that is refused, and the client hangs up. -/
def refusedClient : List Action := [
  others [.wait 0 [.acceptor], .dispatch 0, .accept 7, .return 0, .return 0, .swap 0, .finish 0,
    .wait 0 [.connection 0 EPOLLIN], .dispatch 0],
  [.message 0 (bytes "GET\r\n") .empty (.wrote 1000)],
  others [.swap 0, .finish 0, .wait 0 [.connection 0 EPOLLIN], .dispatch 0,
    .read 0 (.read [])]].flatten

theorem exists_run_refusedClient :
    ∃ s, Run 0 refusedClient (.ok s) ∧ 0 < s.server.made ∧
      (s.server.conn 0).state = .kDisconnected ∧ (s.server.conn 0).socket.shutWr = true := by
  obtain ⟨s, hrun, hs⟩ := exists_run_ok step (.ok (new 0)) refusedClient
    (fun s ↦ decide (0 < s.server.made ∧ (s.server.conn 0).state = .kDisconnected ∧
      (s.server.conn 0).socket.shutWr = true)) (by decide +kernel)
  exact ⟨s, hrun, of_decide_eq_true hs⟩

theorem ends_behind_replies_run :
    ∃ s reads calls, Run 0 refusedClient (.ok s) ∧
      reads <+: readsOf (eventsOn 0 0 refusedClient) ∧ ConnectionCall.shutdown ∈ calls ∧
      (s.server.conn 0).socket.written = sentBefore calls := by
  obtain ⟨s, hrun, hmade, -, hwr⟩ := exists_run_refusedClient
  obtain ⟨reads, hreads, -, context, buf, calls, -, -, hall⟩ :=
    ends_behind_replies 0 _ s 0 hrun hmade
  obtain ⟨hmem, hwritten⟩ := hall hwr
  exact ⟨s, reads, calls, hrun, hreads, hmem, hwritten⟩

/-- **The peer closes the connection.**  In every run of the HTTP server, a connection that is
disconnected is so because a read from its socket found the end of file or failed. -/
theorem closed_by_peer (h : Run workers as (.ok s)) (hc : c < s.server.made)
    (hclosed : (s.server.conn c).state = .kDisconnected) :
    ∃ answer, .other (.handleRead answer) ∈ eventsOn c workers as ∧
      TcpConnection.closes answer = true := by
  obtain ⟨x, hrun, hx⟩ := exists_isConnection 0 c h
  obtain ⟨revents, hconn⟩ := hx.conn hc
  have hclosed' : x.session.conn.state = .kDisconnected := by
    rw [hconn]
    exact hclosed
  have hnew : (Connection.new 0).session.conn.state ≠ .kDisconnected := by decide
  exact (Connection.closed_of_run (Session.inv_new 0) (isOwn_eventsOn c h) hrun
    hclosed').resolve_left hnew

theorem closed_by_peer_run :
    ∃ s answer, Run 0 refusedClient (.ok s) ∧ (s.server.conn 0).state = .kDisconnected ∧
      .other (.handleRead answer) ∈ eventsOn 0 0 refusedClient := by
  obtain ⟨s, hrun, hmade, hclosed, -⟩ := exists_run_refusedClient
  obtain ⟨answer, hmem, -⟩ := closed_by_peer 0 _ s 0 hrun hmade hclosed
  exact ⟨s, answer, hrun, hclosed, hmem⟩

end HttpServer

end Http

end Wuduo
