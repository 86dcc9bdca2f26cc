import Wuduo.TcpConnection

/-!
# The descriptor of a connection, and the events reported for it

A connection hands the number of its descriptor to the kernel and the events that were
reported for its channel are looked at by `Channel::handle_events`; no function of the
connection looks at either.  `Blind` says so of a function: a connection that differs in
these two only goes the same way, and keeps its own.
-/

namespace Wuduo

/-- The same channel for another descriptor, with other events reported. -/
def Channel.relabel (fd : Nat) (revents : BitVec 32) (ch : Channel) : Channel :=
  { ch with fd, revents }

@[simp] theorem Channel.relabel_hasNoneEvents (fd : Nat) (revents : BitVec 32) (ch : Channel) :
    (ch.relabel fd revents).hasNoneEvents = ch.hasNoneEvents := rfl

@[simp] theorem Channel.relabel_isWriting (fd : Nat) (revents : BitVec 32) (ch : Channel) :
    (ch.relabel fd revents).isWriting = ch.isWriting := rfl

theorem Epoller.updateChannel_relabel (ctl : Bool) (ch : Channel) (fd : Nat)
    (revents : BitVec 32) : updateChannel ctl (ch.relabel fd revents) =
      (updateChannel ctl ch).map (Channel.relabel fd revents) := by
  obtain ⟨fd₀, events, revents₀, listed⟩ := ch
  cases ctl <;> cases listed <;> cases hnone : events == 0#32 <;>
    simp [updateChannel, ctlOpFrom, setStateInInterestList, Channel.hasNoneEvents,
      Channel.relabel, hnone]

/-- Two computations that get the same, up to `g`, and go on alike end alike, up to `h`. -/
theorem bind_eq_map_bind {ε α β γ δ : Type*} {x : Except ε α} {y : Except ε β} {g : α → β}
    {h : γ → δ} {k : β → Except ε δ} {k' : α → Except ε γ} (hx : y = x.map g)
    (hk : ∀ a, k (g a) = (k' a).map h) : y.bind k = (x.bind k').map h := by
  cases x with
  | error e =>
      rw [hx]
      rfl
  | ok a =>
      rw [hx]
      exact hk a

namespace TcpConnection

/-- The same connection on another descriptor, with other events reported. -/
def relabel (fd : Nat) (revents : BitVec 32) (c : TcpConnection) : TcpConnection :=
  { c with channel := c.channel.relabel fd revents }

section

variable (fd : Nat) (revents : BitVec 32) (c : TcpConnection)

@[simp] theorem relabel_isWriting :
    (c.relabel fd revents).channel.isWriting = c.channel.isWriting := rfl

@[simp] theorem relabel_state : (c.relabel fd revents).state = c.state := rfl

@[simp] theorem relabel_socket : (c.relabel fd revents).socket = c.socket := rfl

@[simp] theorem relabel_inBuffer : (c.relabel fd revents).inBuffer = c.inBuffer := rfl

@[simp] theorem relabel_outputBuffer : (c.relabel fd revents).outputBuffer = c.outputBuffer := rfl

@[simp] theorem relabel_self : c.relabel c.channel.fd c.channel.revents = c := rfl

end

/-- A function that looks neither at the descriptor nor at the reported events. -/
def Blind (f : TcpConnection → Except NoReturn (TcpConnection × List Callback)) : Prop :=
  ∀ c fd revents, f (c.relabel fd revents) = (f c).map (Prod.map (relabel fd revents) id)

section

variable {f : TcpConnection → Except NoReturn (TcpConnection × List Callback)}
  {c c' : TcpConnection} {cbs : List Callback}

theorem Blind.of_ok (hf : Blind f) (h : f c = .ok (c', cbs)) (fd : Nat) (revents : BitVec 32) :
    f (c.relabel fd revents) = .ok (c'.relabel fd revents, cbs) := by
  rw [hf, h]
  rfl

/-- What is not looked at is kept. -/
theorem Blind.keeps (hf : Blind f) (h : f c = .ok (c', cbs)) :
    c'.channel.fd = c.channel.fd ∧ c'.channel.revents = c.channel.revents := by
  have hself := hf.of_ok h c.channel.fd c.channel.revents
  rw [relabel_self, h] at hself
  have hc : c' = c'.relabel c.channel.fd c.channel.revents :=
    congrArg Prod.fst (Except.ok.inj hself)
  constructor
  · rw [hc]
    rfl
  · rw [hc]
    rfl

end

/-! ## Changes of the interest -/

theorem unregister_relabel (ch : Channel) (fd : Nat) (revents : BitVec 32) :
    unregister (ch.relabel fd revents) = (unregister ch).map (Channel.relabel fd revents) := by
  rw [unregister, unregister, Channel.relabel_hasNoneEvents]
  split
  · exact Epoller.updateChannel_relabel true { ch with events := 0 } fd revents
  · rfl

theorem watchWriting_relabel (ch : Channel) (fd : Nat) (revents : BitVec 32) :
    watchWriting (ch.relabel fd revents) = (watchWriting ch).map (Channel.relabel fd revents) := by
  rw [watchWriting, watchWriting, Channel.relabel_isWriting]
  split
  · exact Epoller.updateChannel_relabel true { ch with events := ch.events ||| EPOLLOUT } fd revents
  · rfl

theorem unwatchWriting_relabel (ch : Channel) (b : Buffer) (fd : Nat) (revents : BitVec 32) :
    unwatchWriting (ch.relabel fd revents) b =
      (unwatchWriting ch b).map (Channel.relabel fd revents) := by
  rw [unwatchWriting, unwatchWriting]
  split
  · exact Epoller.updateChannel_relabel true { ch with events := ch.events &&& ~~~EPOLLOUT } fd
      revents
  · rfl

/-! ## The functions -/

theorem blind_established : Blind established := by
  intro c fd revents
  rw [established, established, relabel_state]
  split
  · have hupdate := Epoller.updateChannel_relabel true
      { c.channel with events := c.channel.events ||| (EPOLLIN ||| EPOLLPRI) } fd revents
    exact bind_eq_map_bind hupdate fun _ ↦ rfl
  · rfl

theorem blind_handleClose : Blind handleClose := by
  intro c fd revents
  rw [handleClose, handleClose, relabel_state]
  split
  · exact bind_eq_map_bind (unregister_relabel c.channel fd revents) fun _ ↦ rfl
  · rfl

theorem sendInLoop_relabel (c : TcpConnection) (data : Bytes) (answer : WriteResult) (fd : Nat)
    (revents : BitVec 32) : (c.relabel fd revents).sendInLoop data answer =
      (c.sendInLoop data answer).map (relabel fd revents) := by
  rw [sendInLoop, sendInLoop, relabel_state]
  split
  · rfl
  · -- what is left over waits for the channel to become writable
    have hrest (wrote : Option Nat) (socket : Socket) :
        (if wrote.getD 0 < data.length then do
          let outputBuffer ← c.outputBuffer.append (data.drop (wrote.getD 0))
          let channel ← watchWriting (c.channel.relabel fd revents)
          return { c.relabel fd revents with socket, outputBuffer, channel }
        else return { c.relabel fd revents with socket }) =
        Except.map (relabel fd revents) (if wrote.getD 0 < data.length then do
          let outputBuffer ← c.outputBuffer.append (data.drop (wrote.getD 0))
          let channel ← watchWriting c.channel
          return { c with socket, outputBuffer, channel }
        else return { c with socket }) := by
      split
      · exact bind_eq_map_bind (g := id) (congrFun Except.map_id _).symm fun _ ↦
          bind_eq_map_bind (watchWriting_relabel c.channel fd revents) fun _ ↦ rfl
      · rfl
    exact hrest _ _

theorem Task.blind_run (task : Task) (answer : WriteResult) : Blind fun c ↦ task.run c answer := by
  intro c fd revents
  cases task with
  | sendInLoop message =>
      exact bind_eq_map_bind (sendInLoop_relabel c message answer fd revents) fun _ ↦ rfl
  | shutdown =>
      simp only [Task.run]
      rw [relabel_isWriting]
      split <;> rfl
  | forceClose =>
      simp only [Task.run]
      rw [relabel_state]
      split
      · exact blind_handleClose c fd revents
      · rfl

theorem shutdown_relabel (c : TcpConnection) (fd : Nat) (revents : BitVec 32) :
    (c.relabel fd revents).shutdown = Prod.map (relabel fd revents) id c.shutdown := by
  rw [shutdown, shutdown, relabel_state]
  split <;> rfl

theorem forceClose_relabel (c : TcpConnection) (fd : Nat) (revents : BitVec 32) :
    (c.relabel fd revents).forceClose = Prod.map (relabel fd revents) id c.forceClose := by
  rw [forceClose, forceClose, relabel_state]
  split <;> rfl

/-- The loop thread runs what a function of the connection hands on. -/
theorem runInLoop_relabel (c : TcpConnection) (task : Option Task) (answer : WriteResult)
    (fd : Nat) (revents : BitVec 32) :
    runInLoop answer (c.relabel fd revents, task) =
      (runInLoop answer (c, task)).map (Prod.map (relabel fd revents) id) := by
  cases task with
  | none => rfl
  | some task => exact task.blind_run answer c fd revents

theorem blind_send (data : Bytes) (answer : WriteResult) :
    Blind fun c ↦ runInLoop answer (c, c.send data) :=
  fun c fd revents ↦ runInLoop_relabel c (c.send data) answer fd revents

theorem blind_shutdown (answer : WriteResult) : Blind fun c ↦ runInLoop answer c.shutdown := by
  intro c fd revents
  simp only [shutdown_relabel]
  exact runInLoop_relabel _ _ answer fd revents

theorem blind_forceClose (answer : WriteResult) : Blind fun c ↦ runInLoop answer c.forceClose := by
  intro c fd revents
  simp only [forceClose_relabel]
  exact runInLoop_relabel _ _ answer fd revents

theorem blind_handleRead (answer : ReadResult) : Blind fun c ↦ c.handleRead answer := by
  intro c fd revents
  simp only [handleRead, relabel_inBuffer]
  cases hread : c.inBuffer.readFd answer with
  | error e => rfl
  | ok r =>
      obtain ⟨numRead, inBuffer⟩ := r
      simp only [ok_bind]
      split
      · rfl
      · split
        · exact blind_handleClose ({ c with inBuffer }.setState .kDisconnecting) fd revents
        · cases answer with
          | failed errno =>
              dsimp only
              split
              · exact blind_forceClose .failed { c with inBuffer } fd revents
              · rfl
          | read data => rfl

theorem blind_handleWrite (answer : WriteResult) : Blind fun c ↦ c.handleWrite answer := by
  intro c fd revents
  simp only [handleWrite]
  rw [relabel_isWriting, relabel_socket, relabel_outputBuffer]
  split
  · split
    · rfl
    · split
      · refine bind_eq_map_bind (g := id) (congrFun Except.map_id _).symm fun outputBuffer ↦
          bind_eq_map_bind (unwatchWriting_relabel c.channel outputBuffer fd revents) fun ch ↦ ?_
        -- a shutdown that was asked for is due
        by_cases hst : c.state = .kDisconnecting
        · rw [if_pos (by exact hst), if_pos hst]
          exact blind_shutdown .failed { c with socket := _, outputBuffer, channel := ch } fd
            revents
        · rw [if_neg (by exact hst), if_neg hst]
          rfl
      · rfl
  · rfl

end TcpConnection

end Wuduo
