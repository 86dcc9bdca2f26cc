import Wuduo.TcpConnection
import Wuduo.Lib.BatchQueue
import Wuduo.Lib.Transition

/-!
# A connection that is shared between threads

A connection of a server with everything that holds a shared pointer to it, and the
threads that work on it:

* other threads, which call `send`, `shutdown` and `force_close`.  A call is taken
  apart where another thread can come in between: the test of `state_`, `set_state`,
  the locked push of `queue_in_loop`, the return;
* the thread of its loop, which takes the pending tasks and runs them, handles
  events, and runs user code that calls into the connection;
* the thread of the base loop, which erases the connection from `connections_`.
  Without workers this is the thread of its loop (`sameLoop`).

A function of the loop thread is one step, up to its callbacks.  All that another
thread sees of it is `state_`.  A test of a value that `state_` goes through within
the step has the outcome of one just before the step or just behind it, but for one
case, which `shows` adds: reading the end of the stream puts even a connection that
is disconnected through `kDisconnecting`.

`std::vector tasks_dump` keeps the closures of a batch, and what they have
captured, until the batch is done; this is `BatchQueue`.  The closures of `send`,
`shutdown` and `force_close` have captured `this` and hold nothing.

Three histories are kept beside the code: the messages of the calls of `send` that
returned, having found the connection connected; those that `send_in_loop` did not
give up; and with each call, the messages returned when it was made.
-/

namespace Wuduo.TcpConnection

/-- What a thread asks of a connection. -/
inductive Request where
  | send (data : Bytes)
  | shutdown
  | forceClose
deriving DecidableEq, Repr

namespace Request

/-- The test of `state_` in front. -/
def accepts : Request → State → Bool
  | .send _, s | .shutdown, s => s = .kConnected
  | .forceClose, s => s = .kConnected ∨ s = .kDisconnecting

/-- What is done to the connection after the test. -/
def mark : Request → TcpConnection → TcpConnection
  | .send _, c => c
  | .shutdown, c | .forceClose, c => c.setState .kDisconnecting

/-- The lambda handed to `run_in_loop`. -/
def task : Request → Task
  | .send data => .sendInLoop data
  | .shutdown => .shutdown
  | .forceClose => .forceClose

/-- The functions that are asked for. -/
def call (c : TcpConnection) : Request → TcpConnection × Option Task
  | .send data => (c, c.send data)
  | .shutdown => c.shutdown
  | .forceClose => c.forceClose

/-- The parts of a call, one after the other, are the call. -/
theorem call_eq (r : Request) (c : TcpConnection) :
    r.call c = if r.accepts c.state then (r.mark c, some r.task) else (c, none) := by
  cases r with
  | send data =>
      by_cases h : c.state = .kConnected <;> simp [call, accepts, mark, task, TcpConnection.send, h]
  | shutdown => simp only [call, accepts, mark, task, TcpConnection.shutdown, decide_eq_true_eq]
  | forceClose =>
      simp only [call, accepts, mark, task, TcpConnection.forceClose, decide_eq_true_eq]

end Request

/-- A message that `send` handed to the loop, with its number among what was handed
over. -/
structure Message where
  id : Nat
  data : Bytes
deriving DecidableEq, Repr

/-- A call of one of the three functions. -/
structure Call where
  request : Request
  /-- the messages of the sends that had returned when the call was made -/
  before : List Message
deriving DecidableEq, Repr

/-- The message of a request that is handed over under a number. -/
def Request.messages (id : Nat) : Request → List Message
  | .send data => [⟨id, data⟩]
  | .shutdown | .forceClose => []

/-- How far a call of another thread has come. -/
inductive Stage where
  | called
  /-- behind the test, which failed -/
  | refused
  /-- behind the test, which succeeded -/
  | passed
  /-- behind `set_state`, or where it would be -/
  | marked
  /-- behind the push, which gave it this number -/
  | queued (id : Nat)
deriving DecidableEq, Repr

/-- The message of a call that has handed it over and not returned. -/
def Stage.messages (request : Request) : Stage → List Message
  | .queued id => request.messages id
  | .called | .refused | .passed | .marked => []

/-- The closures in the queue of the connection's loop. -/
inductive Closure where
  /-- by `new_connection`, holding the connection -/
  | established
  /-- by a call from another thread, holding nothing -/
  | raw (id : Nat) (call : Call)
  /-- by `remove_connection`, holding the connection -/
  | destroyed
deriving DecidableEq, Repr

namespace Closure

def isRaw : Closure → Bool
  | .raw _ _ => true
  | .established | .destroyed => false

def messages : Closure → List Message
  | .raw id call => call.request.messages id
  | .established | .destroyed => []

end Closure

/-- What the loop thread still has to do, each with a shared pointer. -/
inductive Shared.Frame where
  /-- a connection or message callback -/
  | user
  /-- `handle_close` from `close_callback_` on -/
  | closeCallback
deriving DecidableEq, Repr

/-- A connection and what holds it. -/
structure Shared where
  conn : TcpConnection
  /-- the connection's loop is the base loop -/
  sameLoop : Bool
  /-- the connection is in `connections_` -/
  registered : Bool
  /-- the tasks of the connection's loop -/
  io : BatchQueue Closure
  /-- the tasks of the base loop, as far as `remove_connection` queued them -/
  base : BatchQueue Unit
  /-- the innermost first -/
  frames : List Shared.Frame
  /-- the calls other threads are in -/
  calls : List (Call × Stage)
  /-- the number of tasks the three functions have handed to the loop -/
  made : Nat
  /-- the messages of the sends that were accepted and have returned -/
  returned : List Message
  /-- the messages that `send_in_loop` did not give up, in the order in which it ran -/
  lined : List Message
deriving DecidableEq, Repr

namespace Shared

/-- The connection is owned: by `connections_`, a closure, the loop thread or a
caller. -/
def owned (s : Shared) : Bool :=
  s.registered || s.io.held.any (!·.isRaw) || !s.base.held.isEmpty || !s.frames.isEmpty ||
    !s.calls.isEmpty

/-! ## The loop thread -/

/-- A callback of a connection, as something that is still to be done. -/
def frameOf : Callback → Frame
  | .message | .connection => .user
  | .close => .closeCallback

/-- A function of the connection has returned, or not. -/
def act (s : Shared) (r : Except NoReturn (TcpConnection × List Callback)) :
    Except NoReturn Shared :=
  r.map fun (conn, callbacks) ↦ { s with conn, frames := callbacks.map frameOf ++ s.frames }

/-- `send_in_loop` is about to run for some messages, and gives them up if the
connection is disconnected. -/
def enlist (s : Shared) (messages : List Message) : Shared :=
  { s with lined := if s.conn.state = .kDisconnected then s.lined else s.lined ++ messages }

/-- A task is run. -/
def exec (s : Shared) (answer : WriteResult) : Closure → Except NoReturn Shared
  | .established => s.act s.conn.established
  | .raw id call =>
      (s.enlist (call.request.messages id)).act (call.request.task.run s.conn answer)
  | .destroyed => s.act s.conn.destroyed

/-- A call made in the loop thread, which runs its task at once. -/
def callInLoop (s : Shared) (request : Request) (answer : WriteResult) :
    Except NoReturn Shared :=
  let messages := if request.accepts s.conn.state then request.messages s.made else []
  { s with
    made := s.made + 1
    returned := s.returned ++ messages
    lined := s.lined ++ messages }.act (runInLoop answer (request.call s.conn))

/-- The lambda of `remove_connection`. -/
def eraseConnection (s : Shared) : Except NoReturn Shared :=
  if s.registered then .ok { s with registered := false, io := s.io.push .destroyed }
  else .error (.assertion .numErased)

def removeConnection (s : Shared) : Except NoReturn Shared :=
  if s.sameLoop then s.eraseConnection else .ok { s with base := s.base.push () }

/-- A connection that has been inserted into `connections_`. -/
def inserted (sockfd : Nat) (sameLoop : Bool) : Shared where
  conn := TcpConnection.new sockfd
  sameLoop := sameLoop
  registered := true
  io := .empty
  base := .empty
  frames := []
  calls := []
  made := 0
  returned := []
  lined := []

/-- `new_connection` -/
def newConnection (sockfd : Nat) (sameLoop : Bool) : Except NoReturn Shared :=
  let s := inserted sockfd sameLoop
  -- `run_in_loop`
  if sameLoop then s.act s.conn.established else .ok { s with io := s.io.push .established }

/-! ## Steps -/

/-- A step of another thread; the number is the place of its call among those that
are being made. -/
inductive CallerAction where
  /-- a thread that has got hold of a shared pointer makes a call -/
  | call (request : Request)
  /-- the test of `state_`, with the value it finds -/
  | test (i : Nat) (seen : State)
  | mark (i : Nat)
  | push (i : Nat)
  /-- the call returns, and the thread lets go of its pointer -/
  | return (i : Nat)
deriving DecidableEq, Repr

/-- A step of the connection's loop. -/
inductive LoopAction where
  /-- `do_pending_tasks()` takes the pending tasks -/
  | swap
  | runTask (answer : WriteResult)
  /-- `do_pending_tasks()` returns -/
  | finish
  | read (answer : ReadResult)
  | write (answer : WriteResult)
  /-- user code calls into the connection -/
  | call (request : Request) (answer : WriteResult)
  /-- user code has taken something from the input buffer -/
  | setInBuffer (inBuffer : Buffer)
  /-- a callback of the user returns -/
  | return
  /-- `handle_close` calls `close_callback_` -/
  | closeCallback
deriving DecidableEq, Repr

/-- A step of the base loop. -/
inductive BaseAction where
  | swap
  | runTask
  | finish
deriving DecidableEq, Repr

inductive Action where
  | caller (a : CallerAction)
  | loop (a : LoopAction)
  | base (a : BaseAction)
deriving DecidableEq, Repr

/-- The loop thread is not in a callback of the connection. -/
def isFree (s : Shared) : Bool := s.frames.isEmpty

/-- The loop thread may be handling an event of the connection. -/
def isHandling (s : Shared) : Bool :=
  s.owned && s.isFree && s.io.isIdle && s.conn.state ≠ .kConnecting

/-- The loop thread may be in user code. -/
def isUser (s : Shared) : Bool := s.owned && s.frames.head? ≠ some .closeCallback

/-- The values another thread may find `state_` to have. -/
def shows (s : Shared) (seen : State) : Bool :=
  seen = s.conn.state ∨
    -- `handle_read`, between `set_state(kDisconnecting)` and `handle_close`
    seen = .kDisconnecting ∧ s.conn.state = .kDisconnected ∧ s.isHandling

/-- A step of another thread. -/
def stepCaller (s : Shared) : CallerAction → Option Shared
  | .call request =>
      if s.owned then some { s with calls := s.calls ++ [(⟨request, s.returned⟩, .called)] }
      else none
  | .test i seen =>
      match s.calls[i]? with
      | some (call, .called) =>
          if s.shows seen then some { s with
            calls := s.calls.set i (call, if call.request.accepts seen then .passed else .refused) }
          else none
      | _ => none
  | .mark i =>
      match s.calls[i]? with
      | some (call, .passed) => some { s with
          conn := call.request.mark s.conn, calls := s.calls.set i (call, .marked) }
      | _ => none
  | .push i =>
      match s.calls[i]? with
      | some (call, .marked) => some { s with
          io := s.io.push (.raw s.made call)
          calls := s.calls.set i (call, .queued s.made)
          made := s.made + 1 }
      | _ => none
  | .return i =>
      match s.calls[i]? with
      | some (call, .queued id) => some { s with
          calls := s.calls.eraseIdx i, returned := s.returned ++ call.request.messages id }
      | some (_, .refused) => some { s with calls := s.calls.eraseIdx i }
      | _ => none

/-- A step of the connection's loop. -/
def stepLoop (s : Shared) : LoopAction → Option (Except NoReturn Shared)
  | .swap => if s.isFree then s.io.swap.map fun io ↦ .ok { s with io } else none
  | .runTask answer =>
      if s.isFree then s.io.next.map fun (closure, io) ↦ { s with io }.exec answer closure
      else none
  | .finish => if s.isFree then s.io.finish.map fun io ↦ .ok { s with io } else none
  | .read answer => if s.isHandling then some (s.act (s.conn.handleRead answer)) else none
  | .write answer => if s.isHandling then some (s.act (s.conn.handleWrite answer)) else none
  | .call request answer => if s.isUser then some (s.callInLoop request answer) else none
  | .setInBuffer inBuffer =>
      if s.isUser then some (.ok { s with conn := { s.conn with inBuffer } }) else none
  | .return =>
      match s.frames with
      | .user :: frames => some (.ok { s with frames })
      | _ => none
  | .closeCallback =>
      match s.frames with
      | .closeCallback :: frames => some ({ s with frames }.removeConnection)
      | _ => none

/-- A step of the base loop. -/
def stepBase (s : Shared) : BaseAction → Option (Except NoReturn Shared)
  | .swap => s.base.swap.map fun base ↦ .ok { s with base }
  | .runTask => s.base.next.map fun (_, base) ↦ { s with base }.eraseConnection
  | .finish => s.base.finish.map fun base ↦ .ok { s with base }

/-- The transition function. -/
def step (s : Shared) : Action → Option (Except NoReturn Shared)
  | .caller a => (s.stepCaller a).map .ok
  | .loop a => s.stepLoop a
  | .base a => s.stepBase a

/-! ## What a step has done -/

section Steps

variable {s s' : Shared} {i : Nat} {request : Request} {answer : WriteResult}

theorem act_ok {r : Except NoReturn (TcpConnection × List Callback)} (h : s.act r = .ok s') :
    ∃ conn callbacks, r = .ok (conn, callbacks) ∧
      s' = { s with conn, frames := callbacks.map frameOf ++ s.frames } := by
  cases r with
  | error e => cases h
  | ok r => exact ⟨r.1, r.2, rfl, (Except.ok.inj h).symm⟩

theorem eraseConnection_ok (h : s.eraseConnection = .ok s') :
    s.registered = true ∧ s' = { s with registered := false, io := s.io.push .destroyed } := by
  rw [eraseConnection] at h
  split at h
  · rename_i hreg
    exact ⟨hreg, (Except.ok.inj h).symm⟩
  · cases h

theorem removeConnection_ok (h : s.removeConnection = .ok s') :
    s.eraseConnection = .ok s' ∨ s' = { s with base := s.base.push () } := by
  rw [removeConnection] at h
  split at h
  · exact .inl h
  · exact .inr (Except.ok.inj h).symm

theorem stepLoop_swap (h : s.stepLoop .swap = some (.ok s')) :
    ∃ io, s.io.swap = some io ∧ s' = { s with io } := by
  obtain ⟨-, hswap⟩ := Option.ite_none_right_eq_some.mp h
  obtain ⟨io, hio, heq⟩ := Option.map_eq_some_iff.mp hswap
  exact ⟨io, hio, (Except.ok.inj heq).symm⟩

theorem stepLoop_finish (h : s.stepLoop .finish = some (.ok s')) :
    ∃ io, s.io.finish = some io ∧ s' = { s with io } := by
  obtain ⟨-, hfinish⟩ := Option.ite_none_right_eq_some.mp h
  obtain ⟨io, hio, heq⟩ := Option.map_eq_some_iff.mp hfinish
  exact ⟨io, hio, (Except.ok.inj heq).symm⟩

theorem stepLoop_runTask (h : s.stepLoop (.runTask answer) = some (.ok s')) :
    ∃ closure io, s.io.next = some (closure, io) ∧
      { s with io }.exec answer closure = .ok s' := by
  obtain ⟨-, hnext⟩ := Option.ite_none_right_eq_some.mp h
  obtain ⟨p, hp, heq⟩ := Option.map_eq_some_iff.mp hnext
  exact ⟨p.1, p.2, hp, heq⟩

theorem stepLoop_read {answer : ReadResult} (h : s.stepLoop (.read answer) = some (.ok s')) :
    s.act (s.conn.handleRead answer) = .ok s' :=
  Option.some.inj (Option.ite_none_right_eq_some.mp h).2

theorem stepLoop_write (h : s.stepLoop (.write answer) = some (.ok s')) :
    s.act (s.conn.handleWrite answer) = .ok s' :=
  Option.some.inj (Option.ite_none_right_eq_some.mp h).2

theorem stepLoop_call (h : s.stepLoop (.call request answer) = some (.ok s')) :
    s.callInLoop request answer = .ok s' :=
  Option.some.inj (Option.ite_none_right_eq_some.mp h).2

theorem stepLoop_setInBuffer {inBuffer : Buffer}
    (h : s.stepLoop (.setInBuffer inBuffer) = some (.ok s')) :
    s' = { s with conn := { s.conn with inBuffer } } :=
  (Except.ok.inj (Option.some.inj (Option.ite_none_right_eq_some.mp h).2)).symm

theorem stepLoop_return (h : s.stepLoop .return = some (.ok s')) :
    ∃ frames, s' = { s with frames } := by
  rw [stepLoop] at h
  split at h
  · exact ⟨_, (Except.ok.inj (Option.some.inj h)).symm⟩
  · cases h

theorem stepLoop_closeCallback (h : s.stepLoop .closeCallback = some (.ok s')) :
    ∃ frames, { s with frames }.removeConnection = .ok s' := by
  rw [stepLoop] at h
  split at h
  · exact ⟨_, Option.some.inj h⟩
  · cases h

theorem stepBase_ok {a : BaseAction} (h : s.stepBase a = some (.ok s')) :
    ∃ base, s' = { s with base } ∨ { s with base }.eraseConnection = .ok s' := by
  cases a with
  | swap | finish =>
      obtain ⟨base, -, heq⟩ := Option.map_eq_some_iff.mp h
      exact ⟨base, .inl (Except.ok.inj heq).symm⟩
  | runTask =>
      obtain ⟨p, -, herase⟩ := Option.map_eq_some_iff.mp h
      exact ⟨p.2, .inr herase⟩

theorem stepCaller_call (h : s.stepCaller (.call request) = some s') :
    s' = { s with calls := s.calls ++ [(⟨request, s.returned⟩, .called)] } :=
  (Option.some.inj (Option.ite_none_right_eq_some.mp h).2).symm

theorem stepCaller_test {seen : State} (h : s.stepCaller (.test i seen) = some s') :
    ∃ call, s.calls[i]? = some (call, .called) ∧ s.shows seen = true ∧
      (call.request.accepts seen = true ∧ s' = { s with calls := s.calls.set i (call, .passed) } ∨
        s' = { s with calls := s.calls.set i (call, .refused) }) := by
  rw [stepCaller] at h
  split at h
  · rename_i call hi
    obtain ⟨hshows, heq⟩ := Option.ite_none_right_eq_some.mp h
    refine ⟨call, hi, hshows, ?_⟩
    rw [← Option.some.inj heq]
    by_cases hacc : call.request.accepts seen = true
    · rw [if_pos hacc]
      exact .inl ⟨hacc, rfl⟩
    · rw [if_neg hacc]
      exact .inr rfl
  · cases h

theorem stepCaller_mark (h : s.stepCaller (.mark i) = some s') :
    ∃ call, s.calls[i]? = some (call, .passed) ∧
      s' = { s with conn := call.request.mark s.conn, calls := s.calls.set i (call, .marked) } := by
  rw [stepCaller] at h
  split at h
  · rename_i call hi
    exact ⟨call, hi, (Option.some.inj h).symm⟩
  · cases h

theorem stepCaller_push (h : s.stepCaller (.push i) = some s') :
    ∃ call, s.calls[i]? = some (call, .marked) ∧
      s' = { s with
        io := s.io.push (.raw s.made call)
        calls := s.calls.set i (call, .queued s.made)
        made := s.made + 1 } := by
  rw [stepCaller] at h
  split at h
  · rename_i call hi
    exact ⟨call, hi, (Option.some.inj h).symm⟩
  · cases h

/-- A call that returns without having handed anything over adds no message. -/
theorem stepCaller_return (h : s.stepCaller (.return i) = some s') :
    ∃ call stage, s.calls[i]? = some (call, stage) ∧
      s' = { s with
        calls := s.calls.eraseIdx i
        returned := s.returned ++ stage.messages call.request } := by
  rw [stepCaller] at h
  split at h
  · rename_i call id hi
    exact ⟨call, .queued id, hi, (Option.some.inj h).symm⟩
  · rename_i call hi
    refine ⟨call, .refused, hi, ?_⟩
    rw [← Option.some.inj h, Stage.messages, List.append_nil]
  · cases h

end Steps

end Shared

end Wuduo.TcpConnection
