import Wuduo.TcpConnection.Shared

/-!
# Tasks that own nothing

The closures of `send`, `shutdown` and `force_close` have captured `this` and no
shared pointer.  What keeps the connection alive for them is `connections_` and,
once it is erased there, the closure of `destroyed()`: whoever queues a closure of
theirs in front of that one finds the connection alive when it is run, because
`do_pending_tasks()` lets go of a batch only at its end.

## Results

* `tasks_owned`: no such closure is run without an owner, in the runs in which every
  call from another thread gets to its push before the loop takes `destroyed()`;
* `not_tasks_owned`: a call that passes the test of `state_` and is then overtaken by
  the whole close sequence.
-/

namespace Wuduo.TcpConnection.Shared

open Transition

/-- This step runs a closure that has captured `this` only. -/
def runsRaw (s : Shared) : Action → Bool
  | .loop (.runTask _) => s.io.next.any (·.1.isRaw)
  | _ => false

/-- A closure that has captured `this` only is run while someone owns the
connection. -/
def RunsOwned (s : Shared) (a : Action) : Prop := s.runsRaw a = true → s.owned = true

instance (s : Shared) (a : Action) : Decidable (s.RunsOwned a) :=
  inferInstanceAs (Decidable (_ → _))

/-- The loop has not taken the task that runs `destroyed()`. -/
def BeforeDestroyed (s : Shared) : Prop := s.registered = true ∨ .destroyed ∈ s.io.pending

instance (s : Shared) : Decidable s.BeforeDestroyed := inferInstanceAs (Decidable (_ ∨ _))

/-- A call from another thread queues its closure before the loop takes the task
that runs `destroyed()`. -/
def InTime (s : Shared) : Action → Prop
  | .caller (.push _) => s.BeforeDestroyed
  | _ => True

instance (s : Shared) : ∀ a, Decidable (s.InTime a)
  | .caller (.push _) => inferInstanceAs (Decidable s.BeforeDestroyed)
  | .caller (.call _) | .caller (.test _ _) | .caller (.mark _) | .caller (.return _)
  | .loop _ | .base _ => isTrue trivial

/-! ## What is behind the closures -/

/-- The connection is registered, or the closure of `destroyed()` covers those that
hold nothing. -/
def Backed (s : Shared) : Prop :=
  s.registered = true ∨ s.io.Covers .destroyed (·.isRaw = true)

theorem Backed.owned {s : Shared} (h : s.Backed) {closure : Closure}
    (hmem : closure ∈ s.io.waiting) (hraw : closure.isRaw = true) : s.owned = true := by
  rw [Shared.owned]
  rcases h with h | h
  · rw [h]
    rfl
  · have hany : s.io.held.any (!·.isRaw) = true :=
      List.any_eq_true.mpr ⟨_, h.mem_held hmem hraw, rfl⟩
    rw [hany, Bool.or_true]
    rfl

/-- A function of the connection touches neither the registry nor the queue. -/
theorem Backed.act {s s' : Shared} (h : s.Backed)
    {r : Except NoReturn (TcpConnection × List Callback)} (hact : s.act r = .ok s') :
    s'.Backed := by
  obtain ⟨conn, callbacks, -, rfl⟩ := act_ok hact
  exact h

theorem Backed.exec {s s' : Shared} (h : s.Backed) {answer : WriteResult} {closure : Closure}
    (hexec : s.exec answer closure = .ok s') : s'.Backed := by
  cases closure with
  | established | destroyed => exact h.act hexec
  | raw id call => exact Backed.act (s := s.enlist (call.request.messages id)) h hexec

/-- Erasing a connection queues the closure that stands in for the registry. -/
theorem backed_of_eraseConnection {s s' : Shared} (h : s.eraseConnection = .ok s') :
    s'.Backed := by
  obtain ⟨-, rfl⟩ := eraseConnection_ok h
  apply Or.inr
  apply BatchQueue.covers_of_mem_pending
  exact List.mem_append_right _ (List.mem_singleton_self _)

theorem Backed.removeConnection {s s' : Shared} (h : s.Backed)
    (hrem : s.removeConnection = .ok s') : s'.Backed := by
  rcases removeConnection_ok hrem with herase | rfl
  · exact backed_of_eraseConnection herase
  · exact h

theorem backed_newConnection (sockfd : Nat) (sameLoop : Bool) :
    UnlessDown Backed (newConnection sockfd sameLoop) := by
  cases hnew : newConnection sockfd sameLoop with
  | error e => trivial
  | ok s =>
      cases sameLoop with
      | true => exact Backed.act (.inl rfl) hnew
      | false =>
          rw [← Except.ok.inj hnew]
          exact .inl rfl

/-! ## Steps -/

/-- A caller keeps the closures backed, if it is in time with its push. -/
theorem Backed.stepCaller {s s' : Shared} (h : s.Backed) {a : CallerAction}
    (htime : s.InTime (.caller a)) (hstep : s.stepCaller a = some s') : s'.Backed := by
  cases a with
  | call request =>
      rw [stepCaller_call hstep]
      exact h
  | test i seen =>
      obtain ⟨call, -, -, ⟨-, rfl⟩ | rfl⟩ := stepCaller_test hstep
      · exact h
      · exact h
  | mark i =>
      obtain ⟨call, -, rfl⟩ := stepCaller_mark hstep
      exact h
  | push i =>
      obtain ⟨call, -, rfl⟩ := stepCaller_push hstep
      rcases h with h | h
      · exact .inl h
      · apply htime.imp id
        intro hmem
        exact h.push fun _ ↦ hmem
  | «return» i =>
      obtain ⟨call, stage, -, rfl⟩ := stepCaller_return hstep
      exact h

/-- Every step of the loop keeps the closures backed. -/
theorem Backed.stepLoop {s s' : Shared} (h : s.Backed) {a : LoopAction}
    (hstep : s.stepLoop a = some (.ok s')) : s'.Backed := by
  cases a with
  | swap =>
      obtain ⟨io, hswap, rfl⟩ := stepLoop_swap hstep
      exact h.imp_right fun h ↦ h.swap hswap
  | finish =>
      obtain ⟨io, hfinish, rfl⟩ := stepLoop_finish hstep
      exact h.imp_right fun h ↦ h.finish hfinish
  | runTask answer =>
      obtain ⟨closure, io, hnext, hexec⟩ := stepLoop_runTask hstep
      have h' : Backed { s with io } := h.imp_right fun h ↦ h.next hnext
      exact h'.exec hexec
  | read answer => exact h.act (stepLoop_read hstep)
  | write answer => exact h.act (stepLoop_write hstep)
  | call request answer => exact Backed.act (by exact h) (stepLoop_call hstep)
  | setInBuffer inBuffer =>
      rw [stepLoop_setInBuffer hstep]
      exact h
  | «return» =>
      obtain ⟨frames, rfl⟩ := stepLoop_return hstep
      exact h
  | closeCallback =>
      obtain ⟨frames, hrem⟩ := stepLoop_closeCallback hstep
      have h' : Backed { s with frames } := h
      exact h'.removeConnection hrem

/-- Every step of the base loop keeps the closures backed. -/
theorem Backed.stepBase {s s' : Shared} (h : s.Backed) {a : BaseAction}
    (hstep : s.stepBase a = some (.ok s')) : s'.Backed := by
  obtain ⟨base, rfl | herase⟩ := stepBase_ok hstep
  · exact h
  · exact backed_of_eraseConnection herase

theorem step_backed (s : Shared) (a : Action) (s' : Shared) (h : s.Backed) (htime : s.InTime a)
    (hstep : s.step a = some (.ok s')) : s'.Backed := by
  cases a with
  | caller a =>
      obtain ⟨t, ht, heq⟩ := Option.map_eq_some_iff.mp hstep
      cases heq
      exact h.stepCaller htime ht
  | loop a => exact h.stepLoop hstep
  | base a => exact h.stepBase hstep

/-- A closure that is backed finds an owner. -/
theorem Backed.runsOwned {s : Shared} (h : s.Backed) (a : Action) : s.RunsOwned a := by
  intro hraw
  cases a with
  | caller a | base a => cases hraw
  | loop a =>
      cases a with
      | runTask answer =>
          obtain ⟨⟨closure, io⟩, hnext, hclosure⟩ := (Option.any_eq_true _ _).mp hraw
          apply h.owned _ hclosure
          rw [BatchQueue.waiting_next hnext]
          exact List.mem_cons_self
      | swap | finish | read | write | call | setInBuffer | «return» | closeCallback =>
          cases hraw

/-! ## No task outlives its connection -/

/-- **No task outlives its connection.**  In the runs in which every call from
another thread queues its closure before the loop takes the task that runs
`destroyed()`, no closure that has captured `this` only is run when the last owner
of the connection has gone. -/
theorem tasks_owned (sockfd : Nat) (sameLoop : Bool) (as : List Action)
    (htime : AllSteps (liftAbort step) (WhileAlive InTime) (newConnection sockfd sameLoop) as) :
    AllSteps (liftAbort step) (WhileAlive RunsOwned) (newConnection sockfd sameLoop) as := by
  refine htime.of_invariant_whileAlive (I := Backed) step_backed ?_
    (backed_newConnection sockfd sameLoop)
  intro s a hs _
  exact hs.runsOwned a

/-- A call of `send` gets to its push when the connection has been erased already,
but in front of the loop: its closure is in the batch of `destroyed()`. -/
def pushInTime : List Action :=
  [.loop .swap, .loop (.runTask .failed), .loop .return, .loop .finish,
    .caller (.call (.send [1, 2, 3])), .caller (.test 0 .kConnected), .caller (.mark 0),
    .loop (.read (.read [])), .loop .return, .loop .closeCallback,
    .base .swap, .base .runTask, .base .finish,
    .caller (.push 0), .caller (.return 0),
    .loop .swap, .loop (.runTask .failed), .loop (.runTask .failed), .loop .finish]

theorem tasks_owned_pushInTime :
    (∃ s, run (liftAbort step) (newConnection 7 false) pushInTime = some (.ok s) ∧
      s.owned = false) ∧
    AllSteps (liftAbort step) (WhileAlive RunsOwned) (newConnection 7 false) pushInTime := by
  refine ⟨?_, tasks_owned 7 false pushInTime (by decide +kernel)⟩
  obtain ⟨s, hrun, hs⟩ := exists_run_ok step (newConnection 7 false) pushInTime
    (fun s ↦ !s.owned) (by decide +kernel)
  exact ⟨s, hrun, by simpa using hs⟩

/-- A call of `shutdown()` finds the connection connected.  Then its peer closes it,
the base loop erases it, and the loop takes `destroyed()` and lets go of the last
closure that holds the connection; what the call queues then is run on what the
connection has left behind. -/
def pushTooLate : List Action :=
  [.loop .swap, .loop (.runTask .failed), .loop .return, .loop .finish,
    .caller (.call .shutdown), .caller (.test 0 .kConnected), .caller (.mark 0),
    .loop (.read (.read [])), .loop .return, .loop .closeCallback,
    .base .swap, .base .runTask, .base .finish,
    .loop .swap, .loop (.runTask .failed), .loop .finish,
    .caller (.push 0), .caller (.return 0),
    .loop .swap, .loop (.runTask .failed)]

theorem not_tasks_owned :
    (∃ r, run (liftAbort step) (newConnection 7 false) pushTooLate = some r) ∧
    ¬ AllSteps (liftAbort step) (WhileAlive RunsOwned) (newConnection 7 false) pushTooLate := by
  refine ⟨?_, by decide +kernel⟩
  obtain ⟨r, hrun, -⟩ := exists_run (liftAbort step) (newConnection 7 false) pushTooLate
    (fun _ ↦ true) (by decide +kernel)
  exact ⟨r, hrun⟩

end Wuduo.TcpConnection.Shared
