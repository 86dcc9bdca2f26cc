import Wuduo.TcpConnection.Session

/-!
# Pending output is watched

A connection is watched for room to write while it has pending output, and not
otherwise; and once it is closed, it is not watched at all.

The first is part of the invariant of a session.  The second is about all that comes
later: `step_effect` sums up what a step can do to the connection, and it follows that
a connection which has been disconnected is disconnected (`ClosedForGood`).
-/

namespace Wuduo.TcpConnection

open Transition

/-- `force_close` and its lambda close such a connection. -/
abbrev ClosesByForce (c : TcpConnection) : Prop :=
  c.state = .kConnected ∨ c.state = .kDisconnecting

namespace Session

/-! ## What a step does to the connection -/

theorem exec_effect {s s' : Session} {p : Thread × Task} {answer : WriteResult}
    (hconn : s.conn.Inv) (hst : s.conn.state ≠ .kConnecting) (h : s.exec p answer = .ok s') :
    (∃ data cbs, Effect s.conn data s'.conn cbs) ∧ s'.accepted = s.accepted := by
  obtain ⟨c', cbs, hrun, rfl⟩ := exec_ok h
  obtain ⟨c'', cbs', hrun', heff⟩ := p.2.run_spec hconn hst answer
  rw [hrun] at hrun'
  cases hrun'
  exact ⟨⟨_, _, heff⟩, rfl⟩

/-- What is run, or queued, behind a change of the connection. -/
theorem runInLoop_effect {s s' : Session} {c₁ : TcpConnection} {task : Option Task}
    {thread : Thread} {answer : WriteResult} (hinv : c₁.Inv)
    (htask : task ≠ none → c₁.state ≠ .kConnecting)
    (h : s.runInLoop thread answer (c₁, task) = .ok s') :
    (∃ data cbs, Effect c₁ data s'.conn cbs) ∧
      s'.accepted = s.accepted ++ task.elim [] fun t ↦ messagesOf (thread, t) := by
  cases task with
  | none =>
      rw [← Except.ok.inj h]
      exact ⟨⟨_, _, Effect.refl hinv⟩, (List.append_nil _).symm⟩
  | some task =>
      rw [Session.runInLoop] at h
      split at h
      · exact exec_effect (by exact hinv) (htask (Option.some_ne_none _)) h
      · rw [← Except.ok.inj h]
        exact ⟨⟨_, _, Effect.refl hinv⟩, rfl⟩

/-- The message that a step hands to `send`, with the thread that does. -/
def messageOf : Action → List (Thread × Bytes)
  | .send thread data _ => [(thread, data)]
  | _ => []

/-- Nothing but a message that `send` is given by a connected connection is accepted. -/
def acceptedBy (s : Session) (a : Action) : List (Thread × Bytes) :=
  if s.conn.state = .kConnected then messageOf a else []

theorem acceptedBy_of_nil {s : Session} {a : Action} (h : messageOf a = []) :
    s.acceptedBy a = [] := by
  rw [acceptedBy, h, ite_self]

theorem accepted_of_nil {s s' : Session} {a : Action} (h : messageOf a = [])
    (hacc : s'.accepted = s.accepted) : s'.accepted = s.accepted ++ s.acceptedBy a := by
  rw [acceptedBy_of_nil h, hacc, List.append_nil]

/-- **What a step can do.**  It establishes a connection that was just made, or it has
the effect of a function of the loop thread; and it accepts a message only if it is a
`send` and the connection is connected. -/
theorem step_effect {s s' : Session} {a : Action} (h : s.Inv)
    (hstep : s.step a = some (.ok s')) :
    (s.conn.state = .kConnecting ∧ s'.conn.state = .kConnected ∧
        s'.conn.past = s.conn.state :: s.conn.past ∨
      ∃ data cbs, Effect s.conn data s'.conn cbs) ∧
      s'.accepted = s.accepted ++ s.acceptedBy a := by
  cases a with
  | established =>
      rw [step] at hstep
      split at hstep
      · rename_i hst
        obtain ⟨c', hok, -, hst', hpast, -⟩ := established_spec h.conn hst
        rw [hok] at hstep
        rw [← Except.ok.inj (Option.some.inj hstep)]
        exact ⟨.inl ⟨hst, hst', hpast⟩, accepted_of_nil rfl rfl⟩
      · cases hstep
  | send thread data answer =>
      obtain ⟨heff, htask⟩ := send_spec h.conn data
      obtain ⟨⟨_, _, heff'⟩, hacc⟩ := runInLoop_effect heff.inv htask (Option.some.inj hstep)
      refine ⟨.inr ⟨_, _, heff.trans heff'⟩, hacc.trans (congrArg _ ?_)⟩
      rw [acceptedBy, TcpConnection.send]
      by_cases hst : s.conn.state = .kConnected
      · rw [if_neg (not_not.mpr hst), if_pos hst]
        rfl
      · rw [if_pos hst, if_neg hst]
        rfl
  | shutdown thread =>
      obtain ⟨heff, htask⟩ := shutdown_spec h.conn
      obtain ⟨⟨_, _, heff'⟩, hacc⟩ := runInLoop_effect heff.inv htask (Option.some.inj hstep)
      refine ⟨.inr ⟨_, _, heff.trans heff'⟩, hacc.trans (congrArg _ ?_)⟩
      rw [acceptedBy_of_nil rfl, TcpConnection.shutdown]
      split <;> rfl
  | forceClose thread =>
      obtain ⟨heff, htask⟩ := forceClose_spec h.conn
      obtain ⟨⟨_, _, heff'⟩, hacc⟩ := runInLoop_effect heff.inv htask (Option.some.inj hstep)
      refine ⟨.inr ⟨_, _, heff.trans heff'⟩, hacc.trans (congrArg _ ?_)⟩
      rw [acceptedBy_of_nil rfl, TcpConnection.forceClose]
      split <;> rfl
  | handleRead answer =>
      rw [step] at hstep
      split at hstep
      · cases hstep
      · obtain ⟨c', cbs, hok, heff⟩ := handleRead_spec h.conn answer
        rw [hok] at hstep
        rw [← Except.ok.inj (Option.some.inj hstep)]
        exact ⟨.inr ⟨_, _, heff⟩, accepted_of_nil rfl rfl⟩
  | handleWrite answer =>
      obtain ⟨c', hok, heff, -⟩ := handleWrite_spec h.conn answer
      rw [step, hok] at hstep
      rw [← Except.ok.inj (Option.some.inj hstep)]
      exact ⟨.inr ⟨_, _, heff⟩, accepted_of_nil rfl rfl⟩
  | runTask answer =>
      rw [step] at hstep
      cases hq : s.queue with
      | nil => rw [hq] at hstep; cases hstep
      | cons p rest =>
          rw [hq] at hstep
          obtain ⟨heff, hacc⟩ := exec_effect (by exact h.conn) (by exact h.queue (by simp [hq]))
            (Option.some.inj hstep)
          exact ⟨.inr heff, accepted_of_nil rfl hacc⟩
  | setInBuffer inBuffer =>
      rw [← Except.ok.inj (Option.some.inj hstep)]
      exact ⟨.inr ⟨_, _, Effect.setInBuffer h.conn inBuffer⟩, accepted_of_nil rfl rfl⟩

/-- No step takes a connection back. -/
theorem step_rank_le {s s' : Session} {a : Action} (h : s.Inv)
    (hstep : s.step a = some (.ok s')) : s.conn.state.rank ≤ s'.conn.state.rank := by
  rcases (step_effect h hstep).1 with ⟨hst, hst', -⟩ | ⟨data, cbs, heff⟩
  · rw [hst, hst']
    decide
  · exact heff.rank_le

/-- Behind a call of `shutdown()`, an established connection is not connected. -/
theorem rank_shutdown {s s' : Session} {thread : Thread} (h : s.Inv)
    (hst : s.conn.state ≠ .kConnecting) (hstep : s.step (.shutdown thread) = some (.ok s')) :
    2 ≤ s'.conn.state.rank := by
  obtain ⟨heff, htask⟩ := shutdown_spec h.conn
  obtain ⟨⟨_, _, heff'⟩, -⟩ := runInLoop_effect heff.inv htask (Option.some.inj hstep)
  refine Nat.le_trans ?_ heff'.rank_le
  rw [TcpConnection.shutdown]
  split
  · exact Nat.le_refl 2
  · revert hst
    cases hs : s.conn.state <;> simp_all [State.rank]

/-! ## Closed connections -/

/-- Up to its end, a connection has only moved forward. -/
def ClosedForGood (s : Session) : Prop :=
  s.conn.state ≠ .kDisconnected → s.conn.Forward

/-- A connection that has been disconnected is disconnected. -/
theorem ClosedForGood.state_eq {s : Session} (h : s.ClosedForGood) (hclosed : s.conn.HasClosed) :
    s.conn.state = .kDisconnected := by
  by_contra hst
  rcases List.mem_cons.mp hclosed with heq | hpast
  · exact hst heq.symm
  · have hchain := List.isChain_iff_pairwise.mp (h hst)
    exact hst (eq_kDisconnected_of_rank (List.rel_of_pairwise_cons hchain hpast))

theorem step_closedForGood {s s' : Session} {a : Action} (hinv : s.Inv) (h : s.ClosedForGood)
    (hstep : s.step a = some (.ok s')) : s'.ClosedForGood := by
  intro hst'
  have hst : s.conn.state ≠ .kDisconnected := fun hst ↦
    hst' (eq_kDisconnected_of_rank (hst ▸ step_rank_le hinv hstep))
  rcases (step_effect hinv hstep).1 with ⟨hc, hc', hpast⟩ | ⟨data, cbs, heff⟩
  · have hforward := (h hst).setState (s := .kConnected) (by rw [hc]; decide)
    rw [Forward, hc', hpast]
    exact hforward
  · exact heff.forward hst (h hst)

/-- `handle_close` disconnects the connection. -/
theorem hasClosed_of_handleClose {c c' : TcpConnection} {cbs : List Callback}
    (h : c.handleClose = .ok (c', cbs)) : c'.HasClosed := by
  rw [handleClose] at h
  split at h
  · obtain ⟨channel, -, h⟩ := bind_eq_ok.mp h
    cases h
    exact List.mem_cons_self
  · cases h

/-- The step runs `handle_close`: `handle_read` finds the end of the stream or an error, or
the lambda of `force_close` is run. -/
def RunsHandleClose (s : Session) : Action → Prop
  | .handleRead (.read data) => data = []
  | .handleRead (.failed errno) => errno ≠ EAGAIN ∧ s.conn.ClosesByForce
  | .forceClose thread => thread = .loop ∧ s.conn.ClosesByForce
  | .runTask _ => (∃ thread, s.queue.head? = some (thread, .forceClose)) ∧ s.conn.ClosesByForce
  | _ => False

/-- What `force_close` leaves behind in the loop thread is what `handle_close` does. -/
theorem handleClose_of_forceClose {c c' : TcpConnection} {cbs : List Callback}
    (hopen : c.ClosesByForce) (h : TcpConnection.runInLoop .failed c.forceClose = .ok (c', cbs)) :
    ∃ c₁ : TcpConnection, c₁.handleClose = .ok (c', cbs) := by
  rw [forceClose, if_pos hopen, TcpConnection.runInLoop, Task.run, if_pos (.inr rfl)] at h
  exact ⟨_, h⟩

/-- A step that runs `handle_close` does nothing behind it. -/
theorem handleClose_of_runs {s s' : Session} {a : Action} (h : s.RunsHandleClose a)
    (hstep : s.step a = some (.ok s')) :
    ∃ (c : TcpConnection) (cbs : List Callback), c.handleClose = .ok (s'.conn, cbs) := by
  cases a with
  | handleRead answer =>
      rw [step, Option.ite_none_left_eq_some, Option.some.injEq] at hstep
      obtain ⟨⟨c', cbs⟩, hread, rfl⟩ := map_eq_ok.mp hstep.2
      cases answer with
      | read data =>
          obtain rfl : data = [] := h
          obtain ⟨b, hok, -⟩ := Buffer.readFd_read_spec s.conn.inBuffer []
          simp only [handleRead, hok, ok_bind] at hread
          rw [if_neg (by decide), if_pos (by decide)] at hread
          exact ⟨_, cbs, hread⟩
      | failed errno =>
          obtain ⟨herrno, hopen⟩ := h
          simp only [handleRead, Buffer.readFd, ok_bind] at hread
          rw [if_neg (by decide), if_neg (by decide), if_pos herrno] at hread
          obtain ⟨c, hclose⟩ := handleClose_of_forceClose (by exact hopen) hread
          exact ⟨c, cbs, hclose⟩
  | forceClose thread =>
      obtain ⟨rfl, hopen⟩ := h
      have hrun := Option.some.inj hstep
      rw [forceClose, if_pos hopen, Session.runInLoop, if_pos rfl] at hrun
      obtain ⟨c', cbs, hclose, rfl⟩ := exec_ok hrun
      rw [Task.run, if_pos (.inr rfl)] at hclose
      exact ⟨_, cbs, hclose⟩
  | runTask answer =>
      obtain ⟨⟨thread, hhead⟩, hopen⟩ := h
      obtain ⟨rest, hqueue⟩ := List.head?_eq_some_iff.mp hhead
      rw [step, hqueue, Option.some.injEq] at hstep
      obtain ⟨c', cbs, hclose, rfl⟩ := exec_ok hstep
      rw [Task.run, if_pos (by exact hopen)] at hclose
      exact ⟨_, cbs, hclose⟩
  | established | send | shutdown | handleWrite | setInBuffer => exact h.elim

/-- A run ends with the invariant, and with a connection that was not taken back. -/
theorem run_closedForGood {sockfd : Nat} {as : List Action} {r : Except NoReturn Session}
    (h : Run sockfd as r) : ∃ s, r = .ok s ∧ s.Inv ∧ s.ClosedForGood := by
  refine run_alive (I := fun s ↦ s.Inv ∧ s.ClosedForGood) ?_
    ⟨inv_new sockfd, fun _ ↦ List.isChain_singleton _⟩ h
  intro s a r hs hstep
  obtain ⟨s', rfl, hinv⟩ := step_inv s a r hs.1 hstep
  exact ⟨s', rfl, hinv, step_closedForGood hs.1 hs.2 hstep⟩

/-- A connection on which `handle_close` has run is disconnected from then on. -/
theorem state_eq_of_runsHandleClose {sockfd : Nat} {before after : List Action} {a : Action}
    {s₁ s : Session} (hbefore : Run sockfd before (.ok s₁)) (hruns : s₁.RunsHandleClose a)
    (h : Run sockfd (before ++ a :: after) (.ok s)) : s.conn.state = .kDisconnected := by
  obtain ⟨r, hr, hrest⟩ := run_append_eq_some.mp h
  cases hbefore.symm.trans hr
  obtain ⟨r₂, hstep, hrest⟩ := run_ok_cons_eq_some.mp hrest
  have hlast : Run sockfd (before ++ [a]) r₂ := run_append_eq_some.mpr ⟨_, hr, by
    rw [run_cons, liftAbort, hstep]
    rfl⟩
  obtain ⟨s₂, rfl, hinv, hclosed⟩ := run_closedForGood hlast
  obtain ⟨c, cbs, hclose⟩ := handleClose_of_runs hruns hstep
  have hst := hclosed.state_eq (hasClosed_of_handleClose hclose)
  refine (run_ok_invariant (I := fun s ↦ s.Inv ∧ s.conn.state = .kDisconnected) ?_
    ⟨hinv, hst⟩ hrest).2
  intro s a t hs ha
  obtain ⟨t', ht, hinv'⟩ := step_inv s a _ hs.1 ha
  cases ht
  exact ⟨hinv', eq_kDisconnected_of_rank (hs.2 ▸ step_rank_le hs.1 ha)⟩

/-- **Pending output is watched.**  In every state that a connection reaches, and in
which it is not disconnected, it is watched for room to write if and only if it has
pending output; and if it has been disconnected at any time before, as it has once
`handle_close` was run in any step, it is not watched for anything. -/
theorem pending_watched (sockfd : Nat) (as : List Action) (r : Except NoReturn Session)
    (h : Run sockfd as r) :
    ∃ s, r = .ok s ∧
      (s.conn.state ≠ .kDisconnected →
        (s.conn.channel.isWriting = true ↔ s.conn.outputBuffer.readableBytes ≠ 0)) ∧
      (s.conn.HasClosed → s.conn.channel.events = 0) ∧
      ∀ before a after s₁, as = before ++ a :: after → Run sockfd before (.ok s₁) →
        s₁.RunsHandleClose a → s.conn.channel.events = 0 := by
  obtain ⟨s, rfl, hinv, hclosed⟩ := run_closedForGood h
  refine ⟨s, rfl, fun hst ↦ ?_, fun hc ↦ hinv.conn.closed (hclosed.state_eq hc), ?_⟩
  · rw [hinv.conn.watched hst, ne_eq, Buffer.peek_eq_nil_iff]
  · rintro before a after s₁ rfl hbefore hruns
    exact hinv.conn.closed (state_eq_of_runsHandleClose hbefore hruns h)

/-- A message that was queued before `shutdown()`, and of which the socket takes a part
behind it. -/
theorem pending_watched_run :
    ∃ s, Run 7 [.established, .send (.other 1) [1, 2, 3] .failed, .shutdown .loop,
        .runTask (.wrote 1)] (.ok s) ∧ s.conn.state = .kDisconnecting ∧
      (s.conn.channel.isWriting = true ↔ s.conn.outputBuffer.readableBytes ≠ 0) ∧
      s.conn.outputBuffer.peek = [2, 3] := by
  obtain ⟨s, hrun, hs⟩ := exists_run_ok step (.ok (new 7)) [.established,
    .send (.other 1) [1, 2, 3] .failed, .shutdown .loop, .runTask (.wrote 1)] (fun s ↦ decide
      (s.conn.state = .kDisconnecting ∧ s.conn.outputBuffer.peek = [2, 3])) (by decide +kernel)
  obtain ⟨hst, hpeek⟩ := of_decide_eq_true hs
  obtain ⟨s', hs', hwatched, -⟩ := pending_watched 7 _ _ hrun
  cases hs'
  exact ⟨s, hrun, hst, hwatched (by rw [hst]; decide), hpeek⟩

end Session

end Wuduo.TcpConnection
