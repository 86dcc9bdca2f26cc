import Wuduo.TcpServer.Cases
import Wuduo.TcpConnection.Session

/-!
# The connections of a server are sessions

The runs of a single connection, in `TcpConnection.Session`, let anything happen to it at
any time.  A server with its loops decides what happens to a connection and when: it is
established by `new_connection` or by a task, its events are handled when its turn in a
batch comes, and it is called from the callbacks of its loop, in the loop's own thread: calls
of other threads are no part of the server's model.  Here the two are brought together:
`sessionSteps` reads off a step of the server what it is to one connection.

## Results

* `exists_session`: what a run of the server is to one of its connections is a run of a
  session, on the descriptor that was accepted.
* `sent_in_order`: the bytes that a connection has put in order for its peer are those that
  were sent on it, and on no other.
-/

namespace Wuduo.TcpServer

open Lanes Transition
open TcpConnection (Session)

/-- A call into a connection by its loop, as a step of the session. -/
def Call.toAction : Call → TcpConnection.Action
  | .send data answer => .send .loop data answer
  | .shutdown => .shutdown .loop
  | .forceClose => .forceClose .loop

/-- What a step is to one connection. -/
def sessionSteps (c : Nat) (s : TcpServer) : Action → List TcpConnection.Action
  | .runTask l => if front l s.queue = some (.established c) then [.established] else []
  | .accept _ => if s.made = c ∧ s.nextLoop.1 = 0 then [.established] else []
  | .call _ c' call => if c' = c then [call.toAction] else []
  | .read l answer => if front l s.frames = some (.read c) then [.handleRead answer] else []
  | .write l answer => if front l s.frames = some (.write c) then [.handleWrite answer] else []
  | .wait _ _ | .dispatch _ | .swap _ | .finish _ | .return _ | .closeCallback _ => []

/-- The message of a call, if the connection takes it. -/
def Call.sent (state : TcpConnection.State) : Call → List Bytes
  | .send data _ => if state = .kConnected then [data] else []
  | .shutdown | .forceClose => []

/-- The message that a step sends on one connection. -/
def sentOn (c : Nat) (s : TcpServer) : Action → List Bytes
  | .call _ c' call => if c' = c then call.sent (s.conn c).state else []
  | _ => []

/-- The session is where the connection is, on this descriptor. -/
structure IsSession (fd c : Nat) (s : TcpServer) (x : Session) : Prop where
  conn : ∃ revents, x.conn =
    (if c < s.made then s.conn c else TcpConnection.new 0).relabel fd revents
  queue : x.queue = []
  ran : x.ran = x.accepted

/-! ## Calls -/

/-- The messages in what a function of the connection hands on. -/
def handedOn (r : TcpConnection × Option TcpConnection.Task) :
    List (TcpConnection.Thread × Bytes) :=
  r.2.elim [] fun task ↦ TcpConnection.messagesOf (.loop, task)

@[simp] theorem handedOn_shutdown (c : TcpConnection) : handedOn c.shutdown = [] := by
  rw [handedOn, TcpConnection.shutdown]
  split <;> rfl

@[simp] theorem handedOn_forceClose (c : TcpConnection) : handedOn c.forceClose = [] := by
  rw [handedOn, TcpConnection.forceClose]
  split <;> rfl

/-- The loop thread runs at once what a function of the connection hands on. -/
theorem session_runInLoop (x : Session) {r : TcpConnection × Option TcpConnection.Task}
    {answer : WriteResult} {c' : TcpConnection} {cbs : List TcpConnection.Callback}
    (h : TcpConnection.runInLoop answer r = .ok (c', cbs)) :
    x.runInLoop .loop answer r = .ok { x with
      conn := c'
      accepted := x.accepted ++ handedOn r
      ran := x.ran ++ handedOn r } := by
  obtain ⟨c₁, task⟩ := r
  cases task with
  | none =>
      cases h
      simp [Session.runInLoop, handedOn]
  | some task =>
      have hrun : task.run c₁ answer = .ok (c', cbs) := h
      simp [Session.runInLoop, Session.exec, handedOn, hrun]

/-- A call does to the session what it does to its connection. -/
theorem Call.session_step (call : Call) {x : Session} {c' : TcpConnection}
    {cbs : List TcpConnection.Callback} (h : call.run x.conn = .ok (c', cbs)) :
    ∃ y, x.step call.toAction = some (.ok y) ∧ y.conn = c' ∧ y.queue = x.queue ∧
      (x.ran = x.accepted → y.ran = y.accepted) ∧
      y.accepted.map Prod.snd = x.accepted.map Prod.snd ++ call.sent x.conn.state := by
  cases call with
  | send data answer =>
      refine ⟨_, congrArg some (session_runInLoop x h), rfl, rfl, congrArg (· ++ _), ?_⟩
      rw [List.map_append, Call.sent, TcpConnection.send]
      by_cases hst : x.conn.state = .kConnected <;>
        simp [hst, handedOn, TcpConnection.messagesOf]
  | shutdown =>
      refine ⟨_, congrArg some (session_runInLoop _ h), rfl, rfl, congrArg (· ++ _), ?_⟩
      rw [handedOn_shutdown, List.append_nil]
      exact (List.append_nil _).symm
  | forceClose =>
      refine ⟨_, congrArg some (session_runInLoop _ h), rfl, rfl, congrArg (· ++ _), ?_⟩
      rw [handedOn_forceClose, List.append_nil]
      exact (List.append_nil _).symm

/-! ## Steps -/

section

variable {fd c : Nat} {s s₁ t : TcpServer} {x : Session}

/-- Nothing has happened to the connection. -/
theorem IsSession.congr (hx : s.IsSession fd c x) (hmade : t.made = s.made)
    (hconn : t.conn c = s.conn c) : t.IsSession fd c x :=
  ⟨by rw [hmade, hconn]; exact hx.conn, hx.queue, hx.ran⟩

/-- A function of another connection has run. -/
theorem IsSession.acted_of_ne (hx : s.IsSession fd c x) (l : Nat) {c' : Nat} (hne : c ≠ c')
    (conn : TcpConnection) (cbs : List TcpConnection.Callback) :
    (s.acted l c' conn cbs).IsSession fd c x :=
  hx.congr rfl (Function.update_of_ne hne _ _)

/-- A function of the connection does the same to the session. -/
theorem IsSession.of_blind (hx : s.IsSession fd c x) (hc : c < s.made)
    {f : TcpConnection → Except NoReturn (TcpConnection × List TcpConnection.Callback)}
    (hf : TcpConnection.Blind f) {c' : TcpConnection} {cbs : List TcpConnection.Callback}
    (hok : f (s.conn c) = .ok (c', cbs)) :
    x.conn.state = (s.conn c).state ∧ ∃ revents, f x.conn = .ok (c'.relabel fd revents, cbs) := by
  obtain ⟨revents, hconn⟩ := hx.conn
  rw [if_pos hc] at hconn
  rw [hconn]
  exact ⟨rfl, revents, hf.of_ok hok fd revents⟩

/-- What the function leaves behind is the same, too. -/
theorem IsSession.acted (hx : s.IsSession fd c x) (hc : c < s.made) (l : Nat)
    {c' : TcpConnection} (cbs : List TcpConnection.Callback) {y : Session} {revents : BitVec 32}
    (hconn : y.conn = c'.relabel fd revents) (hqueue : y.queue = x.queue)
    (hran : x.ran = x.accepted → y.ran = y.accepted) :
    (s.acted l c c' cbs).IsSession fd c y where
  conn := ⟨revents, by simp [TcpServer.acted, hc, hconn]⟩
  queue := hqueue.trans hx.queue
  ran := hran hx.ran

/-- A step of the server is matched by a session. -/
def Matched (fd c : Nat) (s : TcpServer) (a : Action) (t : TcpServer) (x : Session) : Prop :=
  ∃ y, run (liftAbort Session.step) (.ok x) (sessionSteps c s a) = some (.ok y) ∧
    t.IsSession fd c y ∧ y.accepted.map Prod.snd = x.accepted.map Prod.snd ++ sentOn c s a

theorem IsSession.matched_nil (hx : t.IsSession fd c x) {a : Action}
    (hsteps : sessionSteps c s a = []) (hsent : sentOn c s a = []) : Matched fd c s a t x :=
  ⟨x, by rw [hsteps]; rfl, hx, by rw [hsent, List.append_nil]⟩

/-- A function of a connection is one step of its session, and none of the others'. -/
theorem IsSession.matched_acted (hx : s.IsSession fd c x) {a : Action} {l c' : Nat}
    {f : TcpConnection → Except NoReturn (TcpConnection × List TcpConnection.Callback)}
    (hf : TcpConnection.Blind f) (hc' : c' < s.made) {d : TcpConnection}
    {cbs : List TcpConnection.Callback} (hok : f (s.conn c') = .ok (d, cbs))
    (hmade : s₁.made = s.made) (hconn : s₁.conn = s.conn) {b : TcpConnection.Action}
    {m : List Bytes} (hsteps : sessionSteps c s a = if c' = c then [b] else [])
    (hsent : sentOn c s a = if c' = c then m else [])
    (hstep : ∀ d cbs, c' = c → x.conn.state = (s.conn c).state → f x.conn = .ok (d, cbs) →
      ∃ y, x.step b = some (.ok y) ∧ y.conn = d ∧ y.queue = x.queue ∧
        (x.ran = x.accepted → y.ran = y.accepted) ∧
        y.accepted.map Prod.snd = x.accepted.map Prod.snd ++ m) :
    Matched fd c s a (s₁.acted l c' d cbs) x := by
  have hx₁ : s₁.IsSession fd c x := hx.congr hmade (by rw [hconn])
  by_cases hc : c' = c
  · subst hc
    obtain ⟨hst, revents, hok'⟩ := hx.of_blind hc' hf hok
    obtain ⟨y, hy, hyc, hyq, hyr, hya⟩ := hstep _ cbs rfl hst hok'
    rw [Matched, hsteps, hsent, if_pos rfl, if_pos rfl]
    exact ⟨y, run_cons_eq_some.mpr ⟨.ok y, hy, rfl⟩,
      hx₁.acted (hmade ▸ hc') l cbs hyc hyq hyr, hya⟩
  · exact (hx₁.acted_of_ne l (Ne.symm hc) d cbs).matched_nil (by rw [hsteps, if_neg hc])
      (by rw [hsent, if_neg hc])

/-- A function of the connection that is run by a step of its own. -/
theorem session_step_map {b : TcpConnection.Action}
    {f : TcpConnection → Except NoReturn (TcpConnection × List TcpConnection.Callback)}
    (hb : x.step b = some ((f x.conn).map fun r ↦ { x with conn := r.1 })) {d : TcpConnection}
    {cbs : List TcpConnection.Callback} (hok : f x.conn = .ok (d, cbs)) :
    ∃ y, x.step b = some (.ok y) ∧ y.conn = d ∧ y.queue = x.queue ∧
      (x.ran = x.accepted → y.ran = y.accepted) ∧
      y.accepted.map Prod.snd = x.accepted.map Prod.snd ++ [] := by
  refine ⟨{ x with conn := d }, ?_, rfl, rfl, id, (List.append_nil _).symm⟩
  rw [hb, hok]
  rfl

/-- A connection that is accepted is a session on which nothing has happened yet. -/
theorem IsSession.inserted (hx : s.IsSession fd c x) (connectionFd ioLoop next : Nat) :
    (s.inserted connectionFd ioLoop next).IsSession fd c x := by
  obtain ⟨revents, hconn⟩ := hx.conn
  refine ⟨⟨revents, hconn.trans ?_⟩, hx.queue, hx.ran⟩
  by_cases hc : c = s.made
  · subst hc
    simp [TcpServer.inserted, TcpConnection.new, Channel.new, TcpConnection.relabel,
      Channel.relabel]
  · have hlt : c < s.made + 1 ↔ c < s.made := by omega
    simp [TcpServer.inserted, Function.update_of_ne hc, hlt]

theorem IsSession.matched_wait (hx : s.IsSession fd c x) (l : Nat) (batch : List Active) :
    Matched fd c s (.wait l batch)
      ({ s with conn := batch.foldl setRevents s.conn }.goTo l (.dispatch batch)) x := by
  refine IsSession.matched_nil ⟨?_, hx.queue, hx.ran⟩ rfl rfl
  obtain ⟨revents, hconn⟩ := hx.conn
  refine ⟨revents, ?_⟩
  show x.conn = (if c < s.made then batch.foldl setRevents s.conn c else _).relabel fd revents
  split
  · rename_i hc
    rw [if_pos hc] at hconn
    exact foldl_setRevents (P := fun conn ↦ x.conn = conn.relabel fd revents)
      (fun _ _ h ↦ h) batch s.conn hconn
  · rename_i hc
    rwa [if_neg hc] at hconn

/-- The base loop establishes the connection as soon as it has registered it. -/
theorem IsSession.matched_acceptBase (hx : s.IsSession fd c x) {connectionFd next : Nat}
    (hnext : s.nextLoop = (0, next)) {c' : TcpConnection}
    (hok : (TcpConnection.new connectionFd).established = .ok (c', [.connection])) :
    Matched fd c s (.accept connectionFd)
      ((s.inserted connectionFd 0 next).acted 0 s.made c' [.connection]) x := by
  have hx₁ := hx.inserted connectionFd 0 next
  by_cases hc : s.made = c
  · subst hc
    have hok' : ((s.inserted connectionFd 0 next).conn s.made).established =
        .ok (c', [.connection]) := by
      rw [show (s.inserted connectionFd 0 next).conn s.made = TcpConnection.new connectionFd from
        Function.update_self _ _ _]
      exact hok
    obtain ⟨hst, revents, hest⟩ :=
      hx₁.of_blind (Nat.lt_succ_self _) TcpConnection.blind_established hok'
    have hnew : x.conn.state = .kConnecting := by
      rw [hst]
      simp [TcpServer.inserted, TcpConnection.new]
    obtain ⟨y, hy, hyc, hyq, hyr, hya⟩ := session_step_map (f := TcpConnection.established)
      (by rw [Session.step, if_pos hnew]) hest
    refine ⟨y, ?_, hx₁.acted (Nat.lt_succ_self _) 0 _ hyc hyq hyr, hya⟩
    rw [sessionSteps, hnext, if_pos ⟨rfl, rfl⟩]
    exact run_cons_eq_some.mpr ⟨.ok y, hy, rfl⟩
  · exact (hx₁.acted_of_ne 0 (Ne.symm hc) c' _).matched_nil (if_neg fun h ↦ hc h.1) rfl

/-- **A step of the server is matched by the session of each connection.** -/
theorem step_session (h : s.Inv) (hx : s.IsSession fd c x) {a : Action}
    (hstep : s.step a = some (.ok t)) : Matched fd c s a t x := by
  cases stepped h hstep with
  | @wait l batch hplace hreg => exact hx.matched_wait l batch
  | dispatch | swap | finish | returns | closeWorker | closeBase =>
      refine IsSession.matched_nil ?_ rfl rfl
      exact ⟨hx.conn, hx.queue, hx.ran⟩
  | @established l n c' hruns hst d hok =>
      have hm := ((h.balanced c').new_of_establishing (tasks_pos_of_front hruns.task)).1
      refine hx.matched_acted TcpConnection.blind_established (by simpa using hm) hok
        rfl rfl (b := .established) (m := []) ?_ ?_ ?_
      · simp [sessionSteps, hruns.task]
      · simp [sentOn]
      · rintro d cbs rfl hst' hok
        have hnew : x.conn.state = .kConnecting := hst'.trans hst
        exact session_step_map (f := TcpConnection.established)
          (by rw [Session.step, if_pos hnew]) hok
  | @erase l n c' hruns hc' =>
      refine IsSession.matched_nil ?_ (by simp [sessionSteps, hruns.task]) rfl
      exact ⟨hx.conn, hx.queue, hx.ran⟩
  | @destroy l n c' hruns =>
      refine IsSession.matched_nil ?_ (by simp [sessionSteps, hruns.task]) rfl
      exact hx.congr rfl (congrFun (Function.update_eq_self c' s.conn) c)
  | acceptBase hfront hnext hok => exact hx.matched_acceptBase hnext hok
  | @acceptWorker connectionFd ioLoop next hfront hnext hio =>
      refine IsSession.matched_nil ?_ (if_neg fun h ↦ hio (by simpa [hnext] using h.2)) rfl
      exact ⟨(hx.inserted connectionFd ioLoop next).conn, hx.queue, hx.ran⟩
  | @call l c' _ call hfront hc' hl d cbs hok =>
      refine hx.matched_acted (b := call.toAction) call.blind_run hc' hok rfl rfl
        (m := call.sent (s.conn c).state) rfl rfl ?_
      rintro d cbs rfl hst hok
      rw [← hst]
      exact call.session_step hok
  | @read l c' answer hfront d cbs hok =>
      have hst := h.reported c' (.inl ⟨l, .inl (mem_of_front hfront)⟩)
      refine hx.matched_acted (b := .handleRead answer) (TcpConnection.blind_handleRead answer)
        (h.lt_made hst) hok rfl rfl (m := []) ?_ ?_ ?_
      · simp [sessionSteps, hfront]
      · simp [sentOn]
      · rintro d cbs rfl hst' hok
        exact session_step_map (f := fun c ↦ c.handleRead answer)
          (by rw [Session.step, if_neg (by rwa [hst'])]) hok
  | @write l c' answer hfront d cbs hok =>
      have hst := h.reported c' (.inl ⟨l, .inr (mem_of_front hfront)⟩)
      refine hx.matched_acted (b := .handleWrite answer) (TcpConnection.blind_handleWrite answer)
        (h.lt_made hst) hok rfl rfl (m := []) ?_ ?_ ?_
      · simp [sessionSteps, hfront]
      · simp [sentOn]
      · rintro d cbs rfl hst' hok
        exact session_step_map (f := fun c ↦ c.handleWrite answer) rfl hok

end

/-! ## Runs -/

theorem isSession_new (workers fd c : Nat) : (new workers).IsSession fd c (Session.new fd) where
  conn := ⟨0, by simp [new, TcpConnection.new, Session.new, TcpConnection.relabel, Channel.relabel,
    Channel.new]⟩
  queue := rfl
  ran := rfl

theorem exists_isSession {workers : Nat} {as : List Action} {s : TcpServer} (fd c : Nat)
    (h : run (liftAbort step) (.ok (new workers)) as = some (.ok s)) :
    ∃ x, Session.Run fd (emitted step (sessionSteps c) (.ok (new workers)) as) (.ok x) ∧
      s.IsSession fd c x := by
  have hmatch (s : TcpServer) (a : Action) (t : TcpServer) (r : Except NoReturn Session)
      (hr : s.Inv ∧ ∃ x, r = .ok x ∧ s.IsSession fd c x) (hstep : s.step a = some (.ok t)) :
      ∃ r', run (liftAbort Session.step) r (sessionSteps c s a) = some r' ∧
        t.Inv ∧ ∃ y, r' = .ok y ∧ t.IsSession fd c y := by
    obtain ⟨hinv, x, rfl, hx⟩ := hr
    obtain ⟨y, hy, hyt, -⟩ := step_session hinv hx hstep
    exact ⟨.ok y, hy, hinv.of_step hstep, y, rfl, hyt⟩
  obtain ⟨r, hrun, -, x, rfl, hx⟩ := exists_run_emitted hmatch
    ⟨inv_new workers, _, rfl, isSession_new workers fd c⟩ h
  exact ⟨x, hrun, hx⟩

/-- **The connections of a server are sessions.**  What a run of the acceptor, the base
loop and any number of worker loops is to one connection, of the steps it takes among those
of all others, is a run of a session on the descriptor that was accepted; and it leaves the
session where the run of the server leaves the connection, but for the events that were
reported last. -/
theorem exists_session (workers : Nat) (as : List Action) (s : TcpServer) (c : Nat)
    (h : run (liftAbort step) (.ok (new workers)) as = some (.ok s)) (hc : c < s.made) :
    ∃ x revents, Session.Run (s.conn c).channel.fd
        (emitted step (sessionSteps c) (.ok (new workers)) as) (.ok x) ∧
      x.conn = { s.conn c with channel := { (s.conn c).channel with revents } } := by
  obtain ⟨x, hrun, hx⟩ := exists_isSession (s.conn c).channel.fd c h
  obtain ⟨revents, hconn⟩ := hx.conn
  rw [if_pos hc] at hconn
  exact ⟨x, revents, hrun, hconn⟩

/-- Two connections on two loops, of which the second is closed by its peer. -/
theorem exists_session_run :
    ∃ s x, run (liftAbort step) (.ok (new 1)) [.wait 0 [.acceptor], .dispatch 0, .accept 7,
        .return 0, .wait 1 [], .swap 1, .runTask 1, .call 1 0 (.send [1, 2] (.wrote 1)),
        .return 1, .finish 1, .wait 1 [.connection 0 EPOLLOUT], .dispatch 1,
        .write 1 (.wrote 1)] = some (.ok s) ∧
      Session.Run 7 [.established, .send .loop [1, 2] (.wrote 1), .handleWrite (.wrote 1)]
        (.ok x) ∧ x.conn.socket.written = [1, 2] := by
  obtain ⟨s, hrun, hs⟩ := exists_run_ok step (.ok (new 1)) [.wait 0 [.acceptor], .dispatch 0,
    .accept 7, .return 0, .wait 1 [], .swap 1, .runTask 1, .call 1 0 (.send [1, 2] (.wrote 1)),
    .return 1, .finish 1, .wait 1 [.connection 0 EPOLLOUT], .dispatch 1, .write 1 (.wrote 1)]
    (fun s ↦ decide (0 < s.made ∧ (s.conn 0).channel.fd = 7 ∧
      (s.conn 0).socket.written = [1, 2])) (by decide +kernel)
  obtain ⟨hmade, hfd, hwritten⟩ := of_decide_eq_true hs
  obtain ⟨x, revents, hx, hconn⟩ := exists_session 1 _ s 0 hrun hmade
  have hsteps : emitted step (sessionSteps 0) (.ok (new 1)) [.wait 0 [.acceptor], .dispatch 0,
      .accept 7, .return 0, .wait 1 [], .swap 1, .runTask 1, .call 1 0 (.send [1, 2] (.wrote 1)),
      .return 1, .finish 1, .wait 1 [.connection 0 EPOLLOUT], .dispatch 1, .write 1 (.wrote 1)] =
      [.established, .send .loop [1, 2] (.wrote 1), .handleWrite (.wrote 1)] := by decide +kernel
  rw [hfd, hsteps] at hx
  exact ⟨s, x, hrun, hx, hconn ▸ hwritten⟩

/-- **What is sent on a connection goes out on it.**  In every run of the server, in which
connections are called only from callbacks in the thread of their own loop, the bytes that the
socket of a connection has accepted, followed by the output that is pending, are
the messages that were sent on this connection while it was connected, each whole and in
order; nothing of what is sent on the others is among them. -/
theorem sent_in_order (workers : Nat) (as : List Action) (s : TcpServer) (c : Nat)
    (h : run (liftAbort step) (.ok (new workers)) as = some (.ok s)) (hc : c < s.made)
    (hopen : (s.conn c).state ≠ .kDisconnected) :
    (s.conn c).socket.written ++ (s.conn c).outputBuffer.peek =
      (emitted step (sentOn c) (.ok (new workers)) as).flatten := by
  have hkeep (s : TcpServer) (a : Action) (t : TcpServer) (bs : List Bytes)
      (hs : s.Inv ∧ ∃ x, s.IsSession 0 c x ∧ x.Inv ∧ x.accepted.map Prod.snd = bs)
      (hstep : s.step a = some (.ok t)) : t.Inv ∧
        ∃ y, t.IsSession 0 c y ∧ y.Inv ∧ y.accepted.map Prod.snd = bs ++ sentOn c s a := by
    obtain ⟨hinv, x, hx, hxinv, rfl⟩ := hs
    obtain ⟨y, hy, hyt, hya⟩ := step_session hinv hx hstep
    obtain ⟨y', hy', hyinv⟩ := run_alive Session.step_inv hxinv hy
    cases hy'
    exact ⟨hinv.of_step hstep, y, hyt, hyinv, hya⟩
  obtain ⟨-, x, hx, hxinv, hsent⟩ := run_emitted_invariant hkeep
    ⟨inv_new workers, _, isSession_new workers 0 c, Session.inv_new 0, rfl⟩ h
  obtain ⟨revents, hconn⟩ := hx.conn
  rw [if_pos hc] at hconn
  have hstream := hxinv.stream
  rw [hconn, hx.ran, hsent] at hstream
  exact hstream hopen

/-- Messages on two connections that share a loop. -/
theorem sent_in_order_run :
    ∃ s, run (liftAbort step) (.ok (new 0)) [.wait 0 [.acceptor], .dispatch 0, .accept 7,
        .return 0, .accept 8, .call 0 0 (.send [1, 2] (.wrote 1)), .call 0 1 (.send [3] .failed),
        .call 0 0 (.send [4] .failed)] = some (.ok s) ∧
      (s.conn 0).socket.written ++ (s.conn 0).outputBuffer.peek = [1, 2, 4] := by
  obtain ⟨s, hrun, hs⟩ := exists_run_ok step (.ok (new 0)) [.wait 0 [.acceptor], .dispatch 0,
    .accept 7, .return 0, .accept 8, .call 0 0 (.send [1, 2] (.wrote 1)),
    .call 0 1 (.send [3] .failed), .call 0 0 (.send [4] .failed)]
    (fun s ↦ decide (0 < s.made ∧ (s.conn 0).state ≠ .kDisconnected)) (by decide +kernel)
  obtain ⟨hmade, hopen⟩ := of_decide_eq_true hs
  exact ⟨s, hrun, (sent_in_order 0 _ s 0 hrun hmade hopen).trans (by decide +kernel)⟩

end Wuduo.TcpServer
