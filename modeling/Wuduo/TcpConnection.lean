import Wuduo.Buffer
import Wuduo.Channel

/-!
# `wuduo::TcpConnection`

The model of `tcp_connection.cpp`: one connection, with its state, its channel,
its two buffers, and what the kernel knows of its socket.

Every function is the code as the loop thread runs it.  A function that calls
back into the server or the user does so as its last action, so its model
returns the connection as it is then together with the callbacks it invokes, in
order; what those callbacks do is for the models that run connections.

`send`, `shutdown` and `force_close` can also be called from other threads.
They test and set the state and hand a lambda to `run_in_loop`; the model
returns that lambda as a `Task`, and `Task.run` is what running it does.

`::epoll_ctl` is taken to succeed here; what a failed one leaves behind is a
matter of the channel.
-/

namespace Wuduo

/-- `EAGAIN`, which is also `EWOULDBLOCK`. -/
def EAGAIN : Nat := 11

/-- What `::write` answers: `-1`, or a number of bytes.  An answer above the
number of bytes asked for does not occur; it is read as that number. -/
inductive WriteResult where
  | failed
  | wrote (count : Nat)
deriving DecidableEq, Repr

/-- The kernel's side of a connected socket. -/
structure Socket where
  /-- the bytes accepted by the socket so far -/
  written : Bytes
  /-- `::shutdown(fd, SHUT_WR)` has been issued -/
  shutWr : Bool
deriving DecidableEq, Repr

/-- `::write`: the number of bytes accepted, or `none` for `-1`. -/
def Socket.write (s : Socket) (data : Bytes) : WriteResult → Option Nat × Socket
  | .failed => (none, s)
  | .wrote count =>
      let n := min count data.length
      (some n, { s with written := s.written ++ data.take n })

/-- `::shutdown(fd, SHUT_WR)` -/
def Socket.shutdownWrite (s : Socket) : Socket := { s with shutWr := true }

/-- `TcpConnection::State` -/
inductive TcpConnection.State where
  | kConnecting
  | kConnected
  | kDisconnecting
  | kDisconnected
deriving DecidableEq, Repr

/-- The position of a state in the order of a connection's life. -/
def TcpConnection.State.rank : TcpConnection.State → Nat
  | .kConnecting => 0
  | .kConnected => 1
  | .kDisconnecting => 2
  | .kDisconnected => 3

/-- `TcpConnection`, less the loop, the peer address and the callbacks. -/
structure TcpConnection where
  state : TcpConnection.State
  /-- the earlier values of `state_`, latest first: no part of the code -/
  past : List TcpConnection.State
  channel : Channel
  inBuffer : Buffer
  outputBuffer : Buffer
  socket : Socket
deriving DecidableEq, Repr

namespace TcpConnection

/-- The callbacks a function of the connection invokes. -/
inductive Callback where
  /-- `message_callback_` -/
  | message
  /-- `connection_callback_` -/
  | connection
  /-- `close_callback_` -/
  | close
deriving DecidableEq, Repr

/-- The lambdas handed to `run_in_loop`. -/
inductive Task where
  /-- by `send`, with its own copy of the message -/
  | sendInLoop (message : Bytes)
  /-- by `shutdown` -/
  | shutdown
  /-- by `force_close` -/
  | forceClose
deriving DecidableEq, Repr

/-- The constructor. -/
def new (sockfd : Nat) : TcpConnection where
  state := .kConnecting
  past := []
  channel := Channel.new sockfd
  inBuffer := Buffer.ofSize kInitialSize
  outputBuffer := Buffer.ofSize kInitialSize
  socket := { written := [], shutWr := false }

def setState (c : TcpConnection) (s : State) : TcpConnection :=
  { c with state := s, past := c.state :: c.past }

/-- `if (!channel_.has_none_events()) channel_.disable_all();` -/
def unregister (ch : Channel) : Except NoReturn Channel :=
  if !ch.hasNoneEvents then ch.disableAll true else .ok ch

/-- `if (!channel_.is_writing()) channel_.enable_writing();` -/
def watchWriting (ch : Channel) : Except NoReturn Channel :=
  if !ch.isWriting then ch.enableWriting true else .ok ch

/-- `if (output_buffer_.readable_bytes() == 0) channel_.disable_writing();` -/
def unwatchWriting (ch : Channel) (outputBuffer : Buffer) : Except NoReturn Channel :=
  if outputBuffer.readableBytes = 0 then ch.disableWriting true else .ok ch

def established (c : TcpConnection) : Except NoReturn (TcpConnection × List Callback) :=
  if c.state = .kConnecting then do
    let c := c.setState .kConnected
    let channel ← c.channel.enableReading true
    return ({ c with channel }, [.connection])
  else .error (.assertion .established)

def destroyed (c : TcpConnection) : Except NoReturn (TcpConnection × List Callback) :=
  if c.state = .kConnected then do
    let c := c.setState .kDisconnected
    let channel ← unregister c.channel
    return ({ c with channel }, [.connection])
  else .ok (c, [])

/-- `send_in_loop`, with the answer of `::write` for the case that it is called. -/
def sendInLoop (c : TcpConnection) (data : Bytes) (answer : WriteResult) :
    Except NoReturn TcpConnection :=
  if c.state = .kDisconnected then .ok c
  else do
    -- it is ok to write directly now, no pending write
    let direct := !c.channel.isWriting && c.outputBuffer.readableBytes == 0
    let (wrote, socket) := if direct then c.socket.write data answer else (some 0, c.socket)
    let numWrote := wrote.getD 0
    if numWrote < data.length then
      let outputBuffer ← c.outputBuffer.append (data.drop numWrote)
      let channel ← watchWriting c.channel
      return { c with socket, outputBuffer, channel }
    else
      return { c with socket }

/-- `handle_close`, up to its callbacks. -/
def handleClose (c : TcpConnection) : Except NoReturn (TcpConnection × List Callback) :=
  if c.state = .kConnected ∨ c.state = .kDisconnecting then do
    let c := c.setState .kDisconnected
    let channel ← unregister c.channel
    return ({ c with channel }, [.connection, .close])
  else .error (.assertion .handleClose)

/-! ## The functions open to other threads -/

def send (c : TcpConnection) (data : Bytes) : Option Task :=
  if c.state ≠ .kConnected then none else some (.sendInLoop data)

def shutdown (c : TcpConnection) : TcpConnection × Option Task :=
  if c.state = .kConnected then (c.setState .kDisconnecting, some .shutdown) else (c, none)

def forceClose (c : TcpConnection) : TcpConnection × Option Task :=
  if c.state = .kConnected ∨ c.state = .kDisconnecting then
    (c.setState .kDisconnecting, some .forceClose)
  else (c, none)

/-- Running one of the lambdas in the loop thread. -/
def Task.run (c : TcpConnection) (answer : WriteResult) :
    Task → Except NoReturn (TcpConnection × List Callback)
  | .sendInLoop message => return (← c.sendInLoop message answer, [])
  | .shutdown =>
      if c.channel.isWriting then return (c, [])
      else return ({ c with socket := c.socket.shutdownWrite }, [])
  | .forceClose =>
      if c.state = .kConnected ∨ c.state = .kDisconnecting then c.handleClose
      else return (c, [])

/-- `run_in_loop` in the loop thread: a lambda, if there is one, is run at once. -/
def runInLoop (answer : WriteResult) :
    TcpConnection × Option Task → Except NoReturn (TcpConnection × List Callback)
  | (c, some task) => task.run c answer
  | (c, none) => return (c, [])

/-! ## Events -/

/-- `handle_error` -/
def handleError (c : TcpConnection) : Except NoReturn (TcpConnection × List Callback) :=
  runInLoop .failed c.forceClose

/-- `handle_read`, given the answer of `::readv`. -/
def handleRead (c : TcpConnection) (answer : ReadResult) :
    Except NoReturn (TcpConnection × List Callback) := do
  let (numRead, inBuffer) ← c.inBuffer.readFd answer
  let c := { c with inBuffer }
  if numRead > 0 then
    return (c, [.message])
  else if numRead = 0 then
    (c.setState .kDisconnecting).handleClose
  else match answer with
    | .failed errno => if errno ≠ EAGAIN then c.handleError else return (c, [])
    | .read _ => return (c, [])

/-- `handle_write`, given the answer of `::write` for the case that it is called. -/
def handleWrite (c : TcpConnection) (answer : WriteResult) :
    Except NoReturn (TcpConnection × List Callback) :=
  if c.channel.isWriting then
    match c.socket.write c.outputBuffer.peek answer with
    | (none, _) => return (c, [])
    | (some numWrote, socket) =>
        if numWrote > 0 then do
          let outputBuffer ← c.outputBuffer.retrieve numWrote
          let channel ← unwatchWriting c.channel outputBuffer
          let c := { c with socket, outputBuffer, channel }
          -- after sending all write, it is ok to do the previous ask of shutdown
          if c.state = .kDisconnecting then runInLoop .failed c.shutdown else return (c, [])
        else return (c, [])
  else return (c, [])

end TcpConnection

end Wuduo
