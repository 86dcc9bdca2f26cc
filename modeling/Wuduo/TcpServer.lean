import Wuduo.TcpConnection
import Wuduo.Lib.Lanes
import Mathlib.Data.Finset.Insert
import Mathlib.Logic.Function.Basic

/-!
# `wuduo::TcpServer` and the loops it runs on

The model of `tcp_server.cpp` with its loops: the base loop, which has number 0
and runs the acceptor and the registry of connections, and the worker loops, which
have the numbers from 1 on.  Without workers the base loop serves the connections
as well.

A loop is where its thread is — waiting, dispatching a batch of channels that was
fixed when the wait returned, or running the tasks it found pending — and what the
thread still has to do before it goes on: its `frames`, the innermost first.  So
the user's callbacks can call into any connection of the loop while a batch is
being dispatched and while `handle_close` is between its two callbacks.

The queues of all loops are one list, and so are the frames of all threads
(`Lanes`).  A step of one thread is atomic up to the next point at which it calls
the user or another thread can see what it does; what two threads share is the
queues.

The user's code is the callbacks, which can call into any connection of their loop, in
the loop's own thread.  Calls of other threads, which set the `state_` of a connection at
once and queue tasks that do not own it, are left out here (`TcpConnection.Shared` has
them).

A connection is known by the order in which it was accepted.  The history of
callbacks and of the registry is kept in `log`, the latest first.
-/

namespace Wuduo

/-- What can be in a batch: the acceptor's channel, or that of a connection, with
the events reported for it. -/
inductive TcpServer.Active where
  | acceptor
  | connection (c : Nat) (revents : BitVec 32)
deriving DecidableEq, Repr

/-- Where the thread of a loop is. -/
inductive TcpServer.Place where
  /-- in `epoller_.wait()` -/
  | waiting
  /-- dispatching, with the channels whose turn is still to come -/
  | dispatch (batch : List TcpServer.Active)
  /-- in `do_pending_tasks()`, with this many tasks still to be run -/
  | running (numTasks : Nat)
deriving DecidableEq, Repr

/-- The tasks queued on a loop.  Each holds a shared pointer to its connection. -/
inductive TcpServer.Task where
  /-- by `new_connection`: `conn->established()` -/
  | established (c : Nat)
  /-- by `remove_connection`: erases the connection -/
  | removeConnection (c : Nat)
  /-- by `remove_connection`, once it has erased it: `conn->destroyed()` -/
  | destroyed (c : Nat)
deriving DecidableEq, Repr

/-- What a thread still has to do. -/
inductive TcpServer.Frame where
  /-- `Acceptor::on_incoming_connection` -/
  | acceptor
  /-- `handle_read` of a channel that was reported -/
  | read (c : Nat)
  /-- `handle_write` of a channel that was reported -/
  | write (c : Nat)
  /-- a connection or message callback, called with a shared pointer -/
  | user (c : Nat)
  /-- `handle_close` from `close_callback_` on, with its shared pointer -/
  | closeCallback (c : Nat)
deriving DecidableEq, Repr

/-- What is recorded of a connection. -/
inductive TcpServer.Happening where
  /-- the connection callback is called, in this state -/
  | connectionCallback (state : TcpConnection.State)
  /-- the message callback is called, in this state -/
  | messageCallback (state : TcpConnection.State)
  /-- `handle_close` runs -/
  | handleClose
  /-- `close_callback_` is called -/
  | closeCallback
  /-- the connection is erased from `connections_` -/
  | erased
  /-- `destroyed()` runs, on this loop -/
  | destroyed (loop : Nat)
deriving DecidableEq, Repr

/-- `TcpServer` with its loops and its connections. -/
structure TcpServer where
  /-- the number of worker loops -/
  workers : Nat
  /-- `EventLoopThreadPool::next_` -/
  next : Nat
  /-- the number of connections made so far -/
  made : Nat
  conn : Nat → TcpConnection
  /-- the loop of each connection -/
  loopOf : Nat → Nat
  connections : Finset Nat
  queue : List (Nat × TcpServer.Task)
  frames : List (Nat × TcpServer.Frame)
  place : Nat → TcpServer.Place
  log : List (Nat × TcpServer.Happening)

namespace TcpServer

open Lanes

/-- A server that has been started. -/
def new (workers : Nat) : TcpServer where
  workers := workers
  next := 0
  made := 0
  conn _ := TcpConnection.new 0
  loopOf _ := 0
  connections := ∅
  queue := []
  frames := []
  place _ := .waiting
  log := []

/-- Something has happened to a connection. -/
def record (s : TcpServer) (c : Nat) (what : Happening) : TcpServer :=
  { s with log := (c, what) :: s.log }

/-- `queue_in_loop` -/
def queueInLoop (s : TcpServer) (l : Nat) (task : Task) : TcpServer :=
  { s with queue := s.queue ++ [(l, task)] }

/-! ## What functions of a connection leave behind -/

/-- A callback of a connection, as something that is still to be done. -/
def frameOf (c : Nat) : TcpConnection.Callback → Frame
  | .message | .connection => .user c
  | .close => .closeCallback c

/-- A callback of a connection, as it is recorded.  `close_callback_` stands for
the `handle_close` that will call it. -/
def happeningOf (state : TcpConnection.State) : TcpConnection.Callback → Happening
  | .message => .messageCallback state
  | .connection => .connectionCallback state
  | .close => .handleClose

/-- A function of a connection has returned in the thread of a loop. -/
def acted (s : TcpServer) (l c : Nat) (conn : TcpConnection)
    (callbacks : List TcpConnection.Callback) : TcpServer :=
  { s with
    conn := Function.update s.conn c conn
    frames := callbacks.map (fun cb ↦ (l, frameOf c cb)) ++ s.frames
    log := callbacks.map (fun cb ↦ (c, happeningOf conn.state cb)) ++ s.log }

/-- A function of a connection is run in the thread of a loop. -/
def act (s : TcpServer) (l c : Nat)
    (r : Except NoReturn (TcpConnection × List TcpConnection.Callback)) :
    Except NoReturn TcpServer :=
  r.map fun (conn, callbacks) ↦ s.acted l c conn callbacks

@[simp] theorem act_ok (s : TcpServer) (l c : Nat) (conn : TcpConnection)
    (callbacks : List TcpConnection.Callback) :
    s.act l c (.ok (conn, callbacks)) = .ok (s.acted l c conn callbacks) := rfl

/-! ## The registry -/

/-- `EventLoopThreadPool::next_loop`: the loop, and the next `next_`. -/
def nextLoop (s : TcpServer) : Nat × Nat :=
  if s.workers = 0 then (0, s.next) else (s.next + 1, (s.next + 1) % s.workers)

/-- A new connection is in `connections_`. -/
def inserted (s : TcpServer) (connectionFd ioLoop next : Nat) : TcpServer :=
  { s with
    next, made := s.made + 1
    conn := Function.update s.conn s.made (TcpConnection.new connectionFd)
    loopOf := Function.update s.loopOf s.made ioLoop
    connections := insert s.made s.connections }

/-- `new_connection`, on the base loop. -/
def newConnection (s : TcpServer) (connectionFd : Nat) : Except NoReturn TcpServer :=
  let (ioLoop, next) := s.nextLoop
  if s.made ∈ s.connections then .error (.assertion .inserted)
  else
    let t := s.inserted connectionFd ioLoop next
    if ioLoop = 0 then t.act 0 s.made (t.conn s.made).established
    else .ok (t.queueInLoop ioLoop (.established s.made))

/-- The lambda of `remove_connection`, on the base loop. -/
def eraseConnection (s : TcpServer) (c : Nat) : Except NoReturn TcpServer :=
  if c ∈ s.connections then
    .ok ({ s with connections := s.connections.erase c }.record c .erased
      |>.queueInLoop (s.loopOf c) (.destroyed c))
  else .error (.assertion .numErased)

/-- `remove_connection`, called in the thread of a loop. -/
def removeConnection (s : TcpServer) (l c : Nat) : Except NoReturn TcpServer :=
  if l = 0 then s.eraseConnection c else .ok (s.queueInLoop 0 (.removeConnection c))

/-! ## Steps -/

/-- What a callback of the user may do with a connection. -/
inductive Call where
  | send (data : Bytes) (answer : WriteResult)
  | shutdown
  | forceClose
deriving DecidableEq, Repr

/-- A call in the thread of the connection's own loop. -/
def Call.run (c : TcpConnection) : Call →
    Except NoReturn (TcpConnection × List TcpConnection.Callback)
  | .send data answer => TcpConnection.runInLoop answer (c, c.send data)
  | .shutdown => TcpConnection.runInLoop .failed c.shutdown
  | .forceClose => TcpConnection.runInLoop .failed c.forceClose

/-- A task is run in the thread of a loop. -/
def runTask (s : TcpServer) (l : Nat) : Task → Except NoReturn TcpServer
  | .established c => s.act l c (s.conn c).established
  | .removeConnection c => s.eraseConnection c
  | .destroyed c => (s.record c (.destroyed l)).act l c (s.conn c).destroyed

/-- The channel is registered with the epoller of the loop. -/
def isRegistered (s : TcpServer) (l : Nat) : Active → Bool
  | .acceptor => l = 0
  | .connection c _ => c < s.made && s.loopOf c = l && (s.conn c).channel.inInterestList

/-- The channel of a connection that is active. -/
def Active.channel? : Active → Option Nat
  | .acceptor => none
  | .connection c _ => some c

/-- `Epoller::wait` stores the events it reports in the channels. -/
def setRevents (conn : Nat → TcpConnection) : Active → Nat → TcpConnection
  | .acceptor => conn
  | .connection c revents => Function.update conn c
      { conn c with channel := { (conn c).channel with revents } }

/-- `Channel::handle_events`: a connection sets the callbacks for reading and for
writing only. -/
def framesOf (s : TcpServer) (l : Nat) : Active → List (Nat × Frame)
  | .acceptor => [(l, .acceptor)]
  | .connection c _ => (s.conn c).channel.handleEvents.filterMap fun
      | .read => some (l, .read c)
      | .write => some (l, .write c)
      | .close | .error => none

/-- One step of the thread of a loop, with what the kernel and the user do. -/
inductive Action where
  /-- `epoller_.wait()` returns -/
  | wait (l : Nat) (batch : List Active)
  /-- the next channel of the batch -/
  | dispatch (l : Nat)
  /-- `do_pending_tasks()` takes the pending tasks -/
  | swap (l : Nat)
  | runTask (l : Nat)
  /-- `do_pending_tasks()` returns -/
  | finish (l : Nat)
  /-- `::accept4` returns a descriptor -/
  | accept (connectionFd : Nat)
  /-- a callback of the user calls into a connection of the loop -/
  | call (l c : Nat) (call : Call)
  /-- a callback of the user, or the acceptor, returns -/
  | return (l : Nat)
  | read (l : Nat) (answer : ReadResult)
  | write (l : Nat) (answer : WriteResult)
  /-- `handle_close` calls `close_callback_` -/
  | closeCallback (l : Nat)
deriving DecidableEq, Repr

/-- The frames without the innermost one of a thread. -/
def pop (s : TcpServer) (l : Nat) : TcpServer := { s with frames := removeFront l s.frames }

/-- The queues without the first task of a loop, which has this many to go. -/
def take (s : TcpServer) (l numTasks : Nat) : TcpServer :=
  { s with
    queue := removeFront l s.queue
    place := Function.update s.place l (.running numTasks) }

/-- The thread of a loop goes on. -/
def goTo (s : TcpServer) (l : Nat) (place : Place) : TcpServer :=
  { s with place := Function.update s.place l place }

/-- The transition function. -/
def step (s : TcpServer) : Action → Option (Except NoReturn TcpServer)
  | .wait l batch =>
      if s.place l = .waiting ∧ batch.all (s.isRegistered l) ∧
          (batch.map Active.channel?).Nodup then
        some (.ok ({ s with conn := batch.foldl setRevents s.conn }.goTo l (.dispatch batch)))
      else none
  | .dispatch l =>
      match front l s.frames, s.place l with
      | none, .dispatch (e :: batch) =>
          some (.ok ({ s with frames := s.framesOf l e ++ s.frames }.goTo l (.dispatch batch)))
      | _, _ => none
  | .swap l =>
      match front l s.frames, s.place l with
      | none, .dispatch [] => some (.ok (s.goTo l (.running (Lanes.length l s.queue))))
      | _, _ => none
  | .runTask l =>
      match front l s.frames, s.place l, front l s.queue with
      | none, .running (n + 1), some task => some ((s.take l n).runTask l task)
      | _, _, _ => none
  | .finish l =>
      match front l s.frames, s.place l with
      | none, .running 0 => some (.ok (s.goTo l .waiting))
      | _, _ => none
  | .accept connectionFd =>
      match front 0 s.frames with
      | some .acceptor => some (s.newConnection connectionFd)
      | _ => none
  | .call l c call =>
      match front l s.frames with
      | some (.user _) =>
          if c < s.made ∧ s.loopOf c = l then some (s.act l c (call.run (s.conn c))) else none
      | _ => none
  | .return l =>
      match front l s.frames with
      | some (.user _) | some .acceptor => some (.ok (s.pop l))
      | _ => none
  | .read l answer =>
      match front l s.frames with
      | some (.read c) => some ((s.pop l).act l c ((s.conn c).handleRead answer))
      | _ => none
  | .write l answer =>
      match front l s.frames with
      | some (.write c) => some ((s.pop l).act l c ((s.conn c).handleWrite answer))
      | _ => none
  | .closeCallback l =>
      match front l s.frames with
      | some (.closeCallback c) =>
          some (((s.pop l).record c .closeCallback).removeConnection l c)
      | _ => none

end TcpServer

end Wuduo
