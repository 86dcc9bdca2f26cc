import Wuduo.TcpConnection.Session

/-!
# The input buffer is left alone

What was read from the socket waits in the input buffer for the message callback.  No
function of the connection but `handle_read` touches it, and `handle_read` only adds to
it.
-/

namespace Wuduo.TcpConnection

theorem inBuffer_established {c c' : TcpConnection} {cbs : List Callback}
    (h : c.established = .ok (c', cbs)) : c'.inBuffer = c.inBuffer := by
  rw [established] at h
  split at h
  · obtain ⟨channel, -, h⟩ := bind_eq_ok.mp h
    cases h
    rfl
  · cases h

theorem inBuffer_handleClose {c c' : TcpConnection} {cbs : List Callback}
    (h : c.handleClose = .ok (c', cbs)) : c'.inBuffer = c.inBuffer := by
  rw [handleClose] at h
  split at h
  · obtain ⟨channel, -, h⟩ := bind_eq_ok.mp h
    cases h
    rfl
  · cases h

theorem inBuffer_sendInLoop {c c' : TcpConnection} {data : Bytes} {answer : WriteResult}
    (h : c.sendInLoop data answer = .ok c') : c'.inBuffer = c.inBuffer := by
  rw [sendInLoop] at h
  split at h
  · cases h
    rfl
  · dsimp only at h
    -- whether it is written at once, and whether all of it
    split at h <;> split at h
    · obtain ⟨outputBuffer, -, h⟩ := bind_eq_ok.mp h
      obtain ⟨channel, -, h⟩ := bind_eq_ok.mp h
      cases h
      rfl
    · cases h
      rfl
    · obtain ⟨outputBuffer, -, h⟩ := bind_eq_ok.mp h
      obtain ⟨channel, -, h⟩ := bind_eq_ok.mp h
      cases h
      rfl
    · cases h
      rfl

@[simp] theorem inBuffer_shutdown (c : TcpConnection) : c.shutdown.1.inBuffer = c.inBuffer := by
  rw [shutdown]
  split <;> rfl

@[simp] theorem inBuffer_forceClose (c : TcpConnection) : c.forceClose.1.inBuffer = c.inBuffer := by
  rw [forceClose]
  split <;> rfl

theorem inBuffer_run {c c' : TcpConnection} {task : Task} {answer : WriteResult}
    {cbs : List Callback} (h : task.run c answer = .ok (c', cbs)) : c'.inBuffer = c.inBuffer := by
  cases task with
  | sendInLoop message =>
      obtain ⟨c₁, hsend, h⟩ := bind_eq_ok.mp h
      cases h
      exact inBuffer_sendInLoop hsend
  | shutdown =>
      rw [Task.run] at h
      split at h <;> cases h <;> rfl
  | forceClose =>
      rw [Task.run] at h
      split at h
      · exact inBuffer_handleClose h
      · cases h
        rfl

theorem inBuffer_runInLoop {c c' : TcpConnection} {task : Option Task} {answer : WriteResult}
    {cbs : List Callback} (h : runInLoop answer (c, task) = .ok (c', cbs)) :
    c'.inBuffer = c.inBuffer := by
  cases task with
  | none =>
      cases h
      rfl
  | some task => exact inBuffer_run h

theorem inBuffer_handleWrite {c c' : TcpConnection} {answer : WriteResult} {cbs : List Callback}
    (h : c.handleWrite answer = .ok (c', cbs)) : c'.inBuffer = c.inBuffer := by
  rw [handleWrite] at h
  split at h
  · split at h
    · cases h
      rfl
    · split at h
      · obtain ⟨outputBuffer, -, h⟩ := bind_eq_ok.mp h
        obtain ⟨channel, -, h⟩ := bind_eq_ok.mp h
        dsimp only at h
        split at h
        · exact (inBuffer_runInLoop h).trans (inBuffer_shutdown _)
        · cases h
          rfl
      · cases h
        rfl
  · cases h
    rfl

/-- The bytes that a read delivers. -/
def delivery : ReadResult → Bytes
  | .failed _ => []
  | .read data => data

/-- What is read is added to the input buffer. -/
theorem inBuffer_handleRead {c c' : TcpConnection} {answer : ReadResult} {cbs : List Callback}
    (h : c.handleRead answer = .ok (c', cbs)) :
    c'.inBuffer.peek = c.inBuffer.peek ++ delivery answer := by
  cases answer with
  | failed errno =>
      simp only [handleRead, Buffer.readFd, ok_bind] at h
      rw [if_neg (by decide), if_neg (by decide)] at h
      rw [delivery, List.append_nil]
      split at h
      · exact congrArg Buffer.peek ((inBuffer_runInLoop h).trans (inBuffer_forceClose c))
      · cases h
        rfl
  | read data =>
      obtain ⟨b, hok, hpeek⟩ := Buffer.readFd_read_spec c.inBuffer data
      simp only [handleRead, hok, ok_bind] at h
      split at h
      · cases h
        exact hpeek
      · rw [if_pos (by omega)] at h
        rw [inBuffer_handleClose h]
        exact hpeek

namespace Session

theorem inBuffer_exec {s s' : Session} {p : Thread × Task} {answer : WriteResult}
    (h : s.exec p answer = .ok s') : s'.conn.inBuffer = s.conn.inBuffer := by
  obtain ⟨c', cbs, hrun, rfl⟩ := exec_ok h
  exact inBuffer_run hrun

theorem inBuffer_runInLoop {s s' : Session} {c₁ : TcpConnection} {task : Option Task}
    {thread : Thread} {answer : WriteResult} (h : s.runInLoop thread answer (c₁, task) = .ok s') :
    s'.conn.inBuffer = c₁.inBuffer := by
  cases task with
  | none =>
      rw [← Except.ok.inj h]
  | some task =>
      rw [Session.runInLoop] at h
      split at h
      · exact inBuffer_exec h
      · rw [← Except.ok.inj h]

/-- What a step leaves in the input buffer. -/
def inBufferAfter (s : Session) : Action → Bytes
  | .handleRead answer => s.conn.inBuffer.peek ++ delivery answer
  | .setInBuffer inBuffer => inBuffer.peek
  | _ => s.conn.inBuffer.peek

/-- **The input buffer changes by what is read, and by what the reader makes of it.** -/
theorem step_inBuffer {s s' : Session} {a : Action} (h : s.step a = some (.ok s')) :
    s'.conn.inBuffer.peek = s.inBufferAfter a := by
  cases a with
  | established =>
      rw [step] at h
      split at h
      · obtain ⟨r, hok, rfl⟩ := map_eq_ok.mp (Option.some.inj h)
        exact congrArg Buffer.peek (inBuffer_established hok)
      · cases h
  | send thread data answer => exact congrArg Buffer.peek (inBuffer_runInLoop (Option.some.inj h))
  | shutdown thread =>
      have hrun := Option.some.inj h
      exact congrArg Buffer.peek ((inBuffer_runInLoop hrun).trans (inBuffer_shutdown s.conn))
  | forceClose thread =>
      have hrun := Option.some.inj h
      exact congrArg Buffer.peek ((inBuffer_runInLoop hrun).trans (inBuffer_forceClose s.conn))
  | handleRead answer =>
      rw [step] at h
      split at h
      · cases h
      · obtain ⟨r, hok, rfl⟩ := map_eq_ok.mp (Option.some.inj h)
        exact inBuffer_handleRead hok
  | handleWrite answer =>
      obtain ⟨r, hok, rfl⟩ := map_eq_ok.mp (Option.some.inj h)
      exact congrArg Buffer.peek (inBuffer_handleWrite hok)
  | runTask answer =>
      rw [step] at h
      cases hq : s.queue with
      | nil => rw [hq] at h; cases h
      | cons p rest =>
          rw [hq] at h
          have hexec := inBuffer_exec (Option.some.inj h)
          exact congrArg Buffer.peek hexec
  | setInBuffer inBuffer =>
      rw [← Except.ok.inj (Option.some.inj h)]
      rfl

end Session

end Wuduo.TcpConnection
