import Wuduo.EventLoop

/-!
# Wakeups

A task that is queued must not be slept through: when the loop thread waits while
tasks are pending and no thread is on its way to wake it, the eventfd is readable
(`Woken`).

The reason is that each pending task is attended to: by a wakeup that is written
or about to be, or by the loop thread itself, which is still to swap
(`Attended`).  The loop's own thread relies on the latter: it writes no wakeup
unless it is running tasks.  That is right in a callback, which is followed by a
swap, and wrong before `loop()`, which starts with the wait.  `woken_of_queuesInside`
is about the runs in which this does not happen, and `not_woken` is a run in which
it does.
-/

namespace Wuduo.EventLoop

open Transition

variable {T : Type*}

/-- If the loop thread waits while tasks are pending, and no call of
`queue_in_loop` is between its push and its wakeup, then the eventfd is readable. -/
def Woken (l : EventLoop T) : Prop :=
  l.place = .waiting → l.pendingTasks ≠ [] → l.queueing = false → l.pushed = 0 → l.counter ≠ 0

/-- The loop's own thread does not queue a task outside `loop()` on an eventfd
that is not readable, unless the loop was told to quit. -/
def QueuesInside (l : EventLoop T) : Action T → Prop
  | .own (.push _) => l.place.isOutside = true → l.quit = true ∨ l.counter ≠ 0
  | _ => True

instance (l : EventLoop T) (a : Action T) : Decidable (l.QueuesInside a) := by
  rw [QueuesInside.eq_def]
  split <;> infer_instance

/-- Who sees to it that the pending tasks are run. -/
inductive Attended (l : EventLoop T) : Prop where
  /-- nothing is pending -/
  | idle (h : l.pendingTasks = [])
  | woken (h : l.counter ≠ 0)
  /-- another thread is about to write a wakeup -/
  | waking (h : 0 < l.pushed)
  /-- the loop thread is about to write a wakeup -/
  | queueing (h : l.queueing = true) (hdoing : l.doingPendingTasks = true)
  /-- the loop thread is about to swap -/
  | dispatching {active : List Event} (h : l.place = .dispatch active)
  /-- the loop will not wait any more -/
  | quitting (h : l.quit = true) (hplace : l.place ≠ .waiting)

structure Inv (l : EventLoop T) : Prop where
  attended : l.Attended
  doing : l.doingPendingTasks = true ↔ ∃ tasksDump, l.place = .running tasksDump
  /-- the loop thread waits for its own call -/
  user : l.queueing = true → l.place.isUser = true

theorem inv_new : (new : EventLoop T).Inv where
  attended := .idle rfl
  doing := ⟨fun h ↦ (by cases h), fun ⟨_, h⟩ ↦ (by cases h)⟩
  user h := by cases h

theorem Inv.woken {l : EventLoop T} (h : l.Inv) : l.Woken := by
  intro hplace htasks hqueueing hpushed
  cases h.attended with
  | idle hidle => exact absurd hidle htasks
  | woken hcounter => exact hcounter
  | waking hwaking => omega
  | queueing hq hdoing => rw [hqueueing] at hq; cases hq
  | dispatching hd => rw [hplace] at hd; cases hd
  | quitting hquit hne => exact absurd hplace hne

/-- What attends to the tasks when the loop thread is neither in the callbacks nor
in a call of its own. -/
theorem Attended.elsewhere {l : EventLoop T} (h : l.Attended) (hq : l.queueing = false)
    (hplace : ∀ active, l.place ≠ .dispatch active) :
    l.pendingTasks = [] ∨ l.counter ≠ 0 ∨ 0 < l.pushed ∨ l.quit = true := by
  cases h with
  | idle hidle => exact .inl hidle
  | woken hcounter => exact .inr (.inl hcounter)
  | waking hwaking => exact .inr (.inr (.inl hwaking))
  | queueing hqueueing => rw [hq] at hqueueing; cases hqueueing
  | dispatching hd => exact absurd hd (hplace _)
  | quitting hquit => exact .inr (.inr (.inr hquit))

/-- Any of these attends to the tasks wherever the loop thread does not wait. -/
theorem attended_of_ne_waiting {l : EventLoop T} (hplace : l.place ≠ .waiting)
    (h : l.pendingTasks = [] ∨ l.counter ≠ 0 ∨ 0 < l.pushed ∨ l.quit = true) : l.Attended := by
  rcases h with h | h | h | h
  · exact .idle h
  · exact .woken h
  · exact .waking h
  · exact .quitting h hplace

/-! ## Steps -/

/-- From the return of the wait to the swap the loop thread attends to the tasks
itself, whatever the callbacks do to the counter. -/
theorem inv_dispatch {l : EventLoop T} {active : List Event} (hplace : l.place = .dispatch active)
    (hdoing : l.doingPendingTasks = false) : l.Inv :=
  ⟨.dispatching hplace, by simp [hplace, hdoing], fun _ ↦ by rw [hplace]; rfl⟩

/-- The loop's own thread queues a task.  What follows depends on where it is: a
swap in a callback, a wakeup in a task; outside the loop nothing does. -/
theorem Inv.push {l : EventLoop T} (h : l.Inv) {task : T} (huser : l.place.isUser = true)
    (hinside : l.QueuesInside (.own (.push task))) :
    Inv { l with pendingTasks := l.pendingTasks ++ [task], queueing := true } := by
  refine ⟨?_, h.doing, fun _ ↦ huser⟩
  rcases hplace : l.place with _ | _ | _ | active | tasksDump
  · rcases hinside (by rw [hplace]; rfl) with hquit | hcounter
    · exact .quitting hquit (by simp)
    · exact .woken hcounter
  · rw [hplace] at huser; cases huser
  · rw [hplace] at huser; cases huser
  · exact .dispatching rfl
  · exact .queueing rfl (h.doing.mpr ⟨_, hplace⟩)

/-- A step of the loop thread that waits for no call of its own. -/
theorem Inv.loopStep {l l' : EventLoop T} {a : LoopAction T} (h : l.Inv)
    (hq : l.queueing = false) (hinside : l.QueuesInside (.own a)) (hstep : LoopStep l a l') :
    l'.Inv := by
  have no_call {p : Prop} (hq' : l.queueing = true) : p := by
    rw [hq] at hq'
    cases hq'
  cases hstep with
  | loop hplace =>
      have hatt := h.attended.elsewhere hq (by simp [hplace])
      exact ⟨attended_of_ne_waiting (by simp) hatt, by simpa [hplace] using h.doing, no_call⟩
  | leave hplace =>
      have hatt := h.attended.elsewhere hq (by simp [hplace])
      have hdoing : l.doingPendingTasks = false := by simpa [hplace] using h.doing
      exact ⟨attended_of_ne_waiting (by simp) hatt, by simp [hdoing], fun _ ↦ rfl⟩
  | stay hplace hquit =>
      have hdoing : l.doingPendingTasks = false := by simpa [hplace] using h.doing
      refine ⟨?_, by simp [hdoing], no_call⟩
      rcases h.attended.elsewhere hq (by simp [hplace]) with hidle | hcounter | hwaking | hquitting
      · exact .idle hidle
      · exact .woken hcounter
      · exact .waking hwaking
      · exact absurd hquitting (Bool.eq_false_iff.mp hquit)
  | wait hplace => exact inv_dispatch rfl (by simpa [hplace] using h.doing)
  | @handleEvents e active hplace =>
      have hdoing : l.doingPendingTasks = false := by simpa [hplace] using h.doing
      cases e <;> exact inv_dispatch rfl hdoing
  | swap => exact ⟨.idle rfl, ⟨fun _ ↦ ⟨_, rfl⟩, fun _ ↦ rfl⟩, fun _ ↦ rfl⟩
  | runTask hplace =>
      have hatt := h.attended.elsewhere hq (by simp [hplace])
      exact ⟨attended_of_ne_waiting (by simp) hatt,
        ⟨fun _ ↦ ⟨_, rfl⟩, fun _ ↦ h.doing.mpr ⟨_, hplace⟩⟩, fun _ ↦ rfl⟩
  | finish hplace =>
      have hatt := h.attended.elsewhere hq (by simp [hplace])
      exact ⟨attended_of_ne_waiting (by simp) hatt, by simp, no_call⟩
  | push huser => exact h.push huser hinside
  | quit huser =>
      refine ⟨.quitting rfl ?_, h.doing, h.user⟩
      intro hplace
      rw [show l.place = .waiting from hplace] at huser
      cases huser

/-- `queue_in_loop` of the loop's own thread returns without a wakeup: no tasks are being
run. -/
theorem Inv.ownPushed {l : EventLoop T} (h : l.Inv) (hdoing : l.doingPendingTasks = false) :
    Inv { l with queueing := false } := by
  refine ⟨?_, h.doing, fun hq ↦ (by cases hq)⟩
  cases h.attended with
  | idle hidle => exact .idle hidle
  | woken hcounter => exact .woken hcounter
  | waking hwaking => exact .waking hwaking
  | queueing _ hd => exact absurd hd (Bool.eq_false_iff.mp hdoing)
  | dispatching hd => exact .dispatching hd
  | quitting hquit hne => exact .quitting hquit hne

/-- No step of another thread keeps the loop thread from its own. -/
theorem Inv.other {l l' : EventLoop T} (h : l.Inv) (hatt : l'.Attended)
    (hplace : l'.place = l.place) (hdoing : l'.doingPendingTasks = l.doingPendingTasks)
    (hq : l'.queueing = l.queueing) : l'.Inv :=
  ⟨hatt, by rw [hplace, hdoing]; exact h.doing, by rw [hplace, hq]; exact h.user⟩

/-- Being told to quit takes nobody's attention away. -/
theorem Attended.quit {l : EventLoop T} (h : l.Attended) {n : Nat} :
    Attended { l with quit := true, quitting := n } := by
  cases h with
  | idle h => exact .idle h
  | woken h => exact .woken h
  | waking h => exact .waking h
  | queueing h hd => exact .queueing h hd
  | dispatching h => exact .dispatching h
  | quitting _ hne => exact .quitting rfl hne

/-- Every step in which the loop's own thread does not queue a task outside
`loop()` keeps the invariant. -/
theorem step_inv (l : EventLoop T) (a : Action T) (l' : EventLoop T) (h : l.Inv)
    (hinside : l.QueuesInside a) (hstep : l.step a = some l') : l'.Inv := by
  cases step_cases hstep with
  | own hq hstep => exact h.loopStep hq hinside hstep
  | ownWoken => exact ⟨.woken l.counter_wakeup_ne_zero, h.doing, fun hq ↦ (by cases hq)⟩
  | ownPushed _ hdoing => exact h.ownPushed hdoing
  | otherPush => exact h.other (.waking (Nat.succ_pos _)) rfl rfl rfl
  | otherQuit => exact h.other h.attended.quit rfl rfl rfl
  | otherPushed | otherQuitting =>
      exact h.other (.woken l.counter_wakeup_ne_zero) rfl rfl rfl

/-! ## Runs -/

/-- **No lost wakeup.**  In the runs in which the loop's own thread does not queue
a task outside `loop()` on an eventfd that is not readable, the loop thread never
waits on such an eventfd while tasks are pending and nobody is about to wake it. -/
theorem woken_of_queuesInside (as : List (Action T)) (l : EventLoop T)
    (hinside : AllSteps step QueuesInside new as) (h : run step new as = some l) : l.Woken :=
  (run_invariant_of_allSteps (I := Inv) step_inv inv_new hinside h).woken

/-- Tasks from all sides: from another thread before `loop()`, from a callback,
and from a task. -/
theorem woken_of_queuesInside_run :
    ∃ l : EventLoop Nat, run step new [.otherPush 1, .own .loop, .own .test, .otherPushed,
        .own (.wait [.wakeup]), .own .handleEvents, .own (.push 2), .ownPushed, .own .swap,
        .own .runTask, .own (.push 3), .ownPushed, .own .runTask, .own .finish, .own .test]
          = some l ∧ l.Woken ∧ l.place = .waiting ∧ l.pendingTasks = [3] :=
  ⟨_, rfl, woken_of_queuesInside [.otherPush 1, .own .loop, .own .test, .otherPushed,
    .own (.wait [.wakeup]), .own .handleEvents, .own (.push 2), .ownPushed, .own .swap,
    .own .runTask, .own (.push 3), .ownPushed, .own .runTask, .own .finish, .own .test] _
    (by decide +kernel) rfl, rfl, rfl⟩

/-- A task that the loop's own thread queues before it enters the loop. -/
theorem not_woken :
    ∃ l : EventLoop Nat, run step new [.own (.push 1), .ownPushed, .own .loop, .own .test]
      = some l ∧ ¬ l.Woken :=
  ⟨_, rfl, fun h ↦ h rfl (by decide) rfl rfl rfl⟩

end Wuduo.EventLoop
