import Wuduo.TcpConnection.Shared
import Wuduo.TcpConnection.Spec

/-!
# The half-close of a connection

`::shutdown(fd, SHUT_WR)` is issued by the lambda of `shutdown()`, which the loop
thread runs at once for a call of its own and takes from its queue for a call from
another thread.  `halfCloses` tells the steps in which it is issued, and
`shutWr_of_halfCloses` that there are no others: in particular the `shutdown()` that
`handle_write` asks for never gets that far.
-/

namespace Wuduo.TcpConnection

@[simp] theorem Request.socket_mark (request : Request) (c : TcpConnection) :
    (request.mark c).socket = c.socket := by
  cases request <;> rfl

theorem Request.onward_call (request : Request) (c : TcpConnection) :
    OnwardOpen c (request.call c).1 := by
  cases request with
  | send data => exact OnwardOpen.refl c
  | shutdown => exact onward_shutdown c
  | forceClose => exact onward_forceClose c

namespace Shared

/-- If this step issues `::shutdown(fd, SHUT_WR)`: the messages of the sends that had
returned when the `shutdown()` behind it was called. -/
def halfCloses (s : Shared) : Action → Option (List Message)
  | .loop (.call .shutdown _) =>
      if s.conn.state = .kConnected ∧ s.conn.channel.isWriting = false then some s.returned
      else none
  | .loop (.runTask _) =>
      match s.io.next with
      | some (.raw _ ⟨.shutdown, before⟩, _) =>
          if s.conn.channel.isWriting then none else some before
      | _ => none
  | _ => none

/-- The lambda of `shutdown()`, if it is next and finds the connection idle, is a
half-close. -/
theorem isWriting_of_halfCloses {s : Shared} {id : Nat} {call : Call} {io : BatchQueue Closure}
    {answer : WriteResult} (hnext : s.io.next = some (.raw id call, io))
    (hno : s.halfCloses (.loop (.runTask answer)) = none) (htask : call.request.task = .shutdown) :
    s.conn.channel.isWriting = true := by
  obtain ⟨request, before⟩ := call
  cases request with
  | send data | forceClose => cases htask
  | shutdown =>
      simp only [halfCloses, hnext] at hno
      by_contra hw
      rw [if_neg hw] at hno
      cases hno

/-- So is the lambda of `shutdown()` that a call in the loop thread runs. -/
theorem isWriting_of_call {s : Shared} {request : Request} {answer : WriteResult}
    (hno : s.halfCloses (.loop (.call request answer)) = none)
    (htask : (request.call s.conn).2 = some .shutdown) :
    (request.call s.conn).1.channel.isWriting = true := by
  rw [Request.call_eq] at htask ⊢
  split at htask
  · rename_i hacc
    rw [if_pos hacc]
    cases request with
    | send data | forceClose => cases htask
    | shutdown =>
        by_contra hw
        have hst : s.conn.state = .kConnected := of_decide_eq_true hacc
        rw [halfCloses, if_pos ⟨hst, by simpa [Request.mark, setState] using hw⟩] at hno
        cases hno
  · cases htask

theorem conn_eraseConnection {s s' : Shared} (h : s.eraseConnection = .ok s') :
    s'.conn = s.conn := by
  obtain ⟨-, rfl⟩ := eraseConnection_ok h
  rfl

/-- A step of another thread leaves the socket alone. -/
theorem socket_stepCaller {s s' : Shared} {a : CallerAction} (h : s.stepCaller a = some s') :
    s'.conn.socket = s.conn.socket := by
  cases a with
  | call request => rw [stepCaller_call h]
  | test i seen =>
      obtain ⟨call, -, -, ⟨-, rfl⟩ | rfl⟩ := stepCaller_test h
      · rfl
      · rfl
  | mark i =>
      obtain ⟨call, -, rfl⟩ := stepCaller_mark h
      exact call.request.socket_mark s.conn
  | push i =>
      obtain ⟨call, -, rfl⟩ := stepCaller_push h
      rfl
  | «return» i =>
      obtain ⟨call, stage, -, rfl⟩ := stepCaller_return h
      rfl

/-- Running a task, other than the lambda of `shutdown()` on an idle connection. -/
theorem shutWr_exec {s s' : Shared} {closure : Closure} {answer : WriteResult}
    (hidle : ∀ id call, closure = .raw id call → call.request.task = .shutdown →
      s.conn.channel.isWriting = true)
    (hexec : s.exec answer closure = .ok s') :
    s'.conn.socket.shutWr = s.conn.socket.shutWr := by
  cases closure with
  | established =>
      obtain ⟨conn, cbs, hok, rfl⟩ := act_ok hexec
      exact (onward_established hok).2
  | destroyed =>
      obtain ⟨conn, cbs, hok, rfl⟩ := act_ok hexec
      exact (onward_destroyed hok).1.2
  | raw id call =>
      obtain ⟨conn, cbs, hok, rfl⟩ := act_ok hexec
      exact (Task.onward hok).2 (hidle id call rfl)

theorem shutWr_stepLoop {s s' : Shared} {a : LoopAction} (hno : s.halfCloses (.loop a) = none)
    (hstep : s.stepLoop a = some (.ok s')) :
    s'.conn.socket.shutWr = s.conn.socket.shutWr := by
  cases a with
  | swap =>
      obtain ⟨io, -, rfl⟩ := stepLoop_swap hstep
      rfl
  | finish =>
      obtain ⟨io, -, rfl⟩ := stepLoop_finish hstep
      rfl
  | runTask answer =>
      obtain ⟨closure, io, hnext, hexec⟩ := stepLoop_runTask hstep
      refine (shutWr_exec ?_ hexec).trans rfl
      rintro id call rfl
      exact isWriting_of_halfCloses (s := s) hnext hno
  | read answer =>
      obtain ⟨conn, cbs, hok, rfl⟩ := act_ok (stepLoop_read hstep)
      exact (onward_handleRead hok).2
  | write answer =>
      obtain ⟨conn, cbs, hok, rfl⟩ := act_ok (stepLoop_write hstep)
      exact (onward_handleWrite hok).2
  | call request answer =>
      obtain ⟨conn, cbs, hok, rfl⟩ := act_ok (stepLoop_call hstep)
      exact ((onward_runInLoop hok).2 (isWriting_of_call hno)).trans
        (request.onward_call s.conn).2
  | setInBuffer inBuffer => rw [stepLoop_setInBuffer hstep]
  | «return» =>
      obtain ⟨frames, rfl⟩ := stepLoop_return hstep
      rfl
  | closeCallback =>
      obtain ⟨frames, hrem⟩ := stepLoop_closeCallback hstep
      rcases removeConnection_ok hrem with herase | rfl
      · rw [conn_eraseConnection herase]
      · rfl

/-- No step but those of `halfCloses` shuts the socket down for writing. -/
theorem shutWr_of_halfCloses {s s' : Shared} {a : Action} (hno : s.halfCloses a = none)
    (hstep : s.step a = some (.ok s')) : s'.conn.socket.shutWr = s.conn.socket.shutWr := by
  cases a with
  | caller a =>
      obtain ⟨t, ht, heq⟩ := Option.map_eq_some_iff.mp hstep
      cases heq
      rw [socket_stepCaller ht]
  | loop a => exact shutWr_stepLoop hno hstep
  | base a =>
      obtain ⟨base, rfl | herase⟩ := stepBase_ok hstep
      · rfl
      · rw [conn_eraseConnection herase]

end Shared

end Wuduo.TcpConnection
