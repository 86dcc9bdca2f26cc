import Wuduo.TcpServer.Steps
import Wuduo.TcpConnection.Relabel

/-!
# What a step can be

`Stepped` lists what the steps of a server are that do not bring it down: for each, where
the thread was, and what it leaves behind.  What is true of all steps is proved from this
list, and the transition function is not looked at again.
-/

namespace Wuduo.TcpServer

open Lanes

/-- The connection is out of `connections_`, and `destroyed()` is queued for it. -/
def unregistered (s : TcpServer) (c : Nat) : TcpServer :=
  { s with connections := s.connections.erase c }.record c .erased
    |>.queueInLoop (s.loopOf c) (.destroyed c)

/-- A thread is between two callbacks, running its tasks, with this one at the front. -/
structure Runs (s : TcpServer) (l n : Nat) (task : Task) : Prop where
  idle : front l s.frames = none
  place : s.place l = .running (n + 1)
  task : front l s.queue = some task

/-- The step leads from `s` to this state. -/
inductive Stepped (s : TcpServer) : Action → TcpServer → Prop where
  | wait {l : Nat} {batch : List Active} (hplace : s.place l = .waiting)
      (hreg : batch.all (s.isRegistered l) = true) :
      Stepped s (.wait l batch)
        ({ s with conn := batch.foldl setRevents s.conn }.goTo l (.dispatch batch))
  | dispatch {l : Nat} {e : Active} {batch : List Active} (hidle : front l s.frames = none)
      (hplace : s.place l = .dispatch (e :: batch)) :
      Stepped s (.dispatch l)
        ({ s with frames := s.framesOf l e ++ s.frames }.goTo l (.dispatch batch))
  | swap {l : Nat} (hidle : front l s.frames = none) (hplace : s.place l = .dispatch []) :
      Stepped s (.swap l) (s.goTo l (.running (Lanes.length l s.queue)))
  | finish {l : Nat} (hidle : front l s.frames = none) (hplace : s.place l = .running 0) :
      Stepped s (.finish l) (s.goTo l .waiting)
  | established {l n c : Nat} (hruns : s.Runs l n (.established c))
      (hst : (s.conn c).state = .kConnecting) {c' : TcpConnection}
      (hok : (s.conn c).established = .ok (c', [.connection])) :
      Stepped s (.runTask l) ((s.take l n).acted l c c' [.connection])
  | erase {l n c : Nat} (hruns : s.Runs l n (.removeConnection c)) (hc : c ∈ s.connections) :
      Stepped s (.runTask l) ((s.take l n).unregistered c)
  /-- `destroyed()` finds the connection disconnected -/
  | destroy {l n c : Nat} (hruns : s.Runs l n (.destroyed c)) :
      Stepped s (.runTask l) (((s.take l n).record c (.destroyed l)).acted l c (s.conn c) [])
  /-- the base loop serves the connection -/
  | acceptBase {connectionFd next : Nat} (hfront : front 0 s.frames = some .acceptor)
      (hnext : s.nextLoop = (0, next)) {c' : TcpConnection}
      (hok : (TcpConnection.new connectionFd).established = .ok (c', [.connection])) :
      Stepped s (.accept connectionFd)
        ((s.inserted connectionFd 0 next).acted 0 s.made c' [.connection])
  | acceptWorker {connectionFd ioLoop next : Nat} (hfront : front 0 s.frames = some .acceptor)
      (hnext : s.nextLoop = (ioLoop, next)) (hio : ioLoop ≠ 0) :
      Stepped s (.accept connectionFd)
        ((s.inserted connectionFd ioLoop next).queueInLoop ioLoop (.established s.made))
  | call {l c x : Nat} {call : Call} (hfront : front l s.frames = some (.user x))
      (hc : c < s.made) (hl : s.loopOf c = l) {c' : TcpConnection}
      {cbs : List TcpConnection.Callback} (hok : call.run (s.conn c) = .ok (c', cbs)) :
      Stepped s (.call l c call) (s.acted l c c' cbs)
  | returns {l : Nat} {frame : Frame} (hfront : front l s.frames = some frame)
      (hframe : frame = .acceptor ∨ ∃ c, frame = .user c) :
      Stepped s (.return l) (s.pop l)
  | read {l c : Nat} {answer : ReadResult} (hfront : front l s.frames = some (.read c))
      {c' : TcpConnection} {cbs : List TcpConnection.Callback}
      (hok : (s.conn c).handleRead answer = .ok (c', cbs)) :
      Stepped s (.read l answer) ((s.pop l).acted l c c' cbs)
  | write {l c : Nat} {answer : WriteResult} (hfront : front l s.frames = some (.write c))
      {c' : TcpConnection} {cbs : List TcpConnection.Callback}
      (hok : (s.conn c).handleWrite answer = .ok (c', cbs)) :
      Stepped s (.write l answer) ((s.pop l).acted l c c' cbs)
  /-- on the base loop, `remove_connection` erases the connection at once -/
  | closeBase {c : Nat} (hfront : front 0 s.frames = some (.closeCallback c))
      (hc : c ∈ s.connections) :
      Stepped s (.closeCallback 0) (((s.pop 0).record c .closeCallback).unregistered c)
  | closeWorker {l c : Nat} (hfront : front l s.frames = some (.closeCallback c)) (hl : l ≠ 0) :
      Stepped s (.closeCallback l)
        (((s.pop l).record c .closeCallback).queueInLoop 0 (.removeConnection c))

theorem act_eq_ok {s t : TcpServer} {l c : Nat}
    {r : Except NoReturn (TcpConnection × List TcpConnection.Callback)} (h : s.act l c r = .ok t) :
    ∃ c' cbs, r = .ok (c', cbs) ∧ t = s.acted l c c' cbs := by
  cases r with
  | error e => cases h
  | ok r => exact ⟨r.1, r.2, rfl, (Except.ok.inj h).symm⟩

theorem eraseConnection_eq_ok {s t : TcpServer} {c : Nat} (h : s.eraseConnection c = .ok t) :
    c ∈ s.connections ∧ t = s.unregistered c := by
  rw [eraseConnection] at h
  split at h
  · rename_i hc
    exact ⟨hc, (Except.ok.inj h).symm⟩
  · cases h

theorem Inv.lt_made {s : TcpServer} (h : s.Inv) {c : Nat} (hst : (s.conn c).state ≠ .kConnecting) :
    c < s.made := by
  by_contra hm
  exact hst ((h.balanced c).unmade (by simpa using hm)).1

section

variable {s t : TcpServer}

theorem stepped_runTask (h : s.Inv) {l n : Nat} {task : Task} (hruns : s.Runs l n task)
    (hok : (s.take l n).runTask l task = .ok t) : Stepped s (.runTask l) t := by
  cases task with
  | established c =>
      obtain ⟨-, hst, -⟩ := (h.balanced c).new_of_establishing (tasks_pos_of_front hruns.task)
      obtain ⟨c', hest, -⟩ := TcpConnection.established_spec (h.conn c) hst
      have hact : (s.take l n).act l c (s.conn c).established = .ok t := hok
      rw [hest, act_ok] at hact
      rw [← Except.ok.inj hact]
      exact .established hruns hst hest
  | removeConnection c =>
      obtain ⟨hc, rfl⟩ := eraseConnection_eq_ok hok
      exact .erase hruns hc
  | destroyed c =>
      have hne : (s.conn c).state ≠ .kConnected := by
        rw [(h.of_destroying (tasks_pos_of_front hruns.task)).1]
        simp
      have hact : ((s.take l n).record c (.destroyed l)).act l c (s.conn c).destroyed = .ok t := hok
      rw [TcpConnection.destroyed_of_ne hne, act_ok] at hact
      rw [← Except.ok.inj hact]
      exact .destroy hruns

theorem stepped_accept {connectionFd : Nat} (hfront : front 0 s.frames = some .acceptor)
    (hok : s.newConnection connectionFd = .ok t) : Stepped s (.accept connectionFd) t := by
  rw [newConnection] at hok
  rcases hnext : s.nextLoop with ⟨ioLoop, next⟩
  simp only [hnext] at hok
  split at hok
  · cases hok
  · split at hok
    · rename_i hio
      subst hio
      have hconn : (s.inserted connectionFd 0 next).conn s.made = TcpConnection.new connectionFd :=
        Function.update_self _ _ _
      obtain ⟨c', hest, -⟩ :=
        TcpConnection.established_spec (TcpConnection.inv_new connectionFd) rfl
      rw [hconn, hest, act_ok] at hok
      rw [← Except.ok.inj hok]
      exact .acceptBase hfront hnext hest
    · rename_i hio
      rw [← Except.ok.inj hok]
      exact .acceptWorker hfront hnext hio

/-- **Every step is one of these.** -/
theorem stepped (h : s.Inv) {a : Action} (hstep : s.step a = some (.ok t)) : Stepped s a t := by
  cases a with
  | wait l batch =>
      rw [step] at hstep
      split at hstep
      · rename_i hwait
        cases hstep
        exact .wait hwait.1 hwait.2.1
      · cases hstep
  | dispatch l =>
      rw [step] at hstep
      split at hstep
      · rename_i e batch hidle hplace
        cases hstep
        exact .dispatch hidle hplace
      · cases hstep
  | swap l =>
      rw [step] at hstep
      split at hstep
      · rename_i hidle hplace
        cases hstep
        exact .swap hidle hplace
      · cases hstep
  | runTask l =>
      rw [step] at hstep
      split at hstep
      · rename_i hidle hplace hfront
        exact stepped_runTask h ⟨hidle, hplace, hfront⟩ (Option.some.inj hstep)
      · cases hstep
  | finish l =>
      rw [step] at hstep
      split at hstep
      · rename_i hidle hplace
        cases hstep
        exact .finish hidle hplace
      · cases hstep
  | accept connectionFd =>
      rw [step] at hstep
      split at hstep
      · rename_i hfront
        exact stepped_accept hfront (Option.some.inj hstep)
      · cases hstep
  | call l c call =>
      rw [step] at hstep
      split at hstep
      · rename_i hfront
        split at hstep
        · rename_i hc
          obtain ⟨c', cbs, hok, rfl⟩ := act_eq_ok (Option.some.inj hstep)
          exact .call hfront hc.1 hc.2 hok
        · cases hstep
      · cases hstep
  | «return» l =>
      rw [step] at hstep
      split at hstep
      · rename_i c hfront
        cases hstep
        exact .returns hfront (.inr ⟨c, rfl⟩)
      · rename_i hfront
        cases hstep
        exact .returns hfront (.inl rfl)
      · cases hstep
  | read l answer =>
      rw [step] at hstep
      split at hstep
      · rename_i hfront
        obtain ⟨c', cbs, hok, rfl⟩ := act_eq_ok (Option.some.inj hstep)
        exact .read hfront hok
      · cases hstep
  | write l answer =>
      rw [step] at hstep
      split at hstep
      · rename_i hfront
        obtain ⟨c', cbs, hok, rfl⟩ := act_eq_ok (Option.some.inj hstep)
        exact .write hfront hok
      · cases hstep
  | closeCallback l =>
      rw [step] at hstep
      split at hstep
      · rename_i c hfront
        have hok := Option.some.inj hstep
        rw [removeConnection] at hok
        split at hok
        · rename_i hl
          subst hl
          obtain ⟨hc, rfl⟩ := eraseConnection_eq_ok hok
          exact .closeBase hfront hc
        · rename_i hl
          rw [← Except.ok.inj hok]
          exact .closeWorker hfront hl
      · cases hstep

end

theorem Call.blind_run (call : Call) : TcpConnection.Blind call.run := by
  cases call with
  | send data answer => exact TcpConnection.blind_send data answer
  | shutdown => exact TcpConnection.blind_shutdown .failed
  | forceClose => exact TcpConnection.blind_forceClose .failed

theorem Inv.of_step {s t : TcpServer} {a : Action} (h : s.Inv) (hstep : s.step a = some (.ok t)) :
    t.Inv := by
  rcases step_outcome h hstep with ⟨t', ht', hfollows⟩ | ⟨herr, -⟩
  · cases ht'
    exact h.follows hfollows
  · cases herr

end Wuduo.TcpServer
