import Wuduo.Lib.Transition

/-!
# `wuduo::EventLoop`

The model of `event_loop.cpp`: the loop thread's way through `loop()` and
`do_pending_tasks()`, and the calls of `queue_in_loop` and `quit` that other
threads and the loop's own make meanwhile.

The steps are those between which threads can interleave: the locked push of a
task, the write to the eventfd, the test of `quit_`, the wait, the callback of
each active channel, the locked swap, the start of each task.  A call of
`queue_in_loop` or `quit` is therefore two steps, and a thread can be found
between them.

What tasks and callbacks do beyond calling the loop is not described here, so the
type of tasks is a parameter.  They are assumed to return: a task that throws would
leave `doing_pending_tasks_` set.  And what the tasks hold is assumed to queue nothing
when it is destroyed, which happens at the end of `do_pending_tasks()`, when
`doing_pending_tasks_` has been reset.
-/

namespace Wuduo

/-- An active channel: the loop's own for wakeups, or any other. -/
inductive EventLoop.Event where
  | wakeup
  | other
deriving DecidableEq, Repr

/-- Where the loop thread is. -/
inductive EventLoop.Place (T : Type*) where
  /-- before `loop()` or after it -/
  | outside
  /-- before the test of `quit_` -/
  | test
  /-- in `epoller_.wait()` -/
  | waiting
  /-- in the callbacks, with the channels whose turn is still to come -/
  | dispatch (active : List EventLoop.Event)
  /-- in `do_pending_tasks()`, with the tasks still to be run -/
  | running (tasksDump : List T)
deriving DecidableEq, Repr

/-- A loop, its eventfd, and the calls that are being made to it. -/
structure EventLoop (T : Type*) where
  place : EventLoop.Place T
  looping : Bool
  quit : Bool
  doingPendingTasks : Bool
  pendingTasks : List T
  /-- the counter of `wakeupfd_` -/
  counter : Nat
  /-- the loop thread is in `queue_in_loop`, behind its push -/
  queueing : Bool
  /-- the other threads in `queue_in_loop`, behind their push -/
  pushed : Nat
  /-- the other threads in `quit`, behind the assignment -/
  quitting : Nat
deriving DecidableEq, Repr

namespace EventLoop

variable {T : Type*}

/-- The constructor. -/
def new : EventLoop T where
  place := .outside
  looping := false
  quit := false
  doingPendingTasks := false
  pendingTasks := []
  counter := 0
  queueing := false
  pushed := 0
  quitting := 0

/-- The greatest value of an eventfd counter. -/
def maxCounter : Nat := 0xfffffffffffffffe

/-- `wakeup`: a write that does not fit is refused. -/
def wakeup (l : EventLoop T) : EventLoop T :=
  { l with counter := if l.counter < maxCounter then l.counter + 1 else l.counter }

theorem counter_wakeup_ne_zero (l : EventLoop T) : l.wakeup.counter ≠ 0 := by
  rw [wakeup]
  split
  · exact Nat.succ_ne_zero _
  · rename_i h
    intro h0
    rw [show l.counter = 0 from h0] at h
    exact h (by decide)

/-- The callback of an active channel, as far as it concerns the loop. -/
def handle (l : EventLoop T) : Event → EventLoop T
  | .wakeup => { l with counter := 0 }
  | .other => l

/-- The places at which callbacks, tasks, or the code around `loop()` run, and so
may call the loop. -/
def Place.isUser : Place T → Bool
  | .outside | .dispatch _ | .running _ => true
  | .test | .waiting => false

def Place.isOutside : Place T → Bool
  | .outside => true
  | _ => false

/-- The steps of the loop thread that wait for its own call of `queue_in_loop` to
return. -/
inductive LoopAction (T : Type*) where
  /-- `loop()` is entered -/
  | loop
  | test
  /-- `epoller_.wait()` returns -/
  | wait (active : List Event)
  | handleEvents
  /-- `do_pending_tasks`, up to the assignment of `doing_pending_tasks_` -/
  | swap
  | runTask
  /-- `do_pending_tasks` after the last task -/
  | finish
  /-- `queue_in_loop`, up to the push -/
  | push (task : T)
  | quit
deriving DecidableEq, Repr

/-- One step of the loop thread or of another one. -/
inductive Action (T : Type*) where
  | own (a : LoopAction T)
  /-- `queue_in_loop` of the loop thread, from the push on -/
  | ownPushed
  | otherPush (task : T)
  | otherPushed
  | otherQuit
  | otherQuitting
deriving DecidableEq, Repr

/-- A step of the loop thread. -/
def stepLoop (l : EventLoop T) : LoopAction T → Option (EventLoop T)
  | .loop =>
      match l.place with
      | .outside => some { l with place := .test, looping := true }
      | _ => none
  | .test =>
      match l.place with
      | .test =>
          if l.quit then some { l with place := .outside, looping := false }
          else some { l with place := .waiting }
      | _ => none
  | .wait active =>
      match l.place with
      | .waiting =>
          if .wakeup ∈ active ∧ l.counter = 0 then none
          else some { l with place := .dispatch active }
      | _ => none
  | .handleEvents =>
      match l.place with
      | .dispatch (e :: active) => some { l.handle e with place := .dispatch active }
      | _ => none
  | .swap =>
      match l.place with
      | .dispatch [] => some { l with
          place := .running l.pendingTasks, pendingTasks := [], doingPendingTasks := true }
      | _ => none
  | .runTask =>
      match l.place with
      | .running (_ :: tasksDump) => some { l with place := .running tasksDump }
      | _ => none
  | .finish =>
      match l.place with
      -- `tasks_dump` is destroyed behind the reset, and queues nothing
      | .running [] => some { l with place := .test, doingPendingTasks := false }
      | _ => none
  | .push task =>
      if l.place.isUser then some { l with
        pendingTasks := l.pendingTasks ++ [task], queueing := true }
      else none
  | .quit => if l.place.isUser then some { l with quit := true } else none

/-- The transition function.  Tasks return, and their destructors do not call
`queue_in_loop`. -/
def step (l : EventLoop T) : Action T → Option (EventLoop T)
  | .own a => if l.queueing then none else l.stepLoop a
  | .ownPushed =>
      if l.queueing then
        -- `!in_loop_thread() || doing_pending_tasks_`
        if l.doingPendingTasks then some { l.wakeup with queueing := false }
        else some { l with queueing := false }
      else none
  | .otherPush task => some { l with
      pendingTasks := l.pendingTasks ++ [task], pushed := l.pushed + 1 }
  | .otherPushed => if 0 < l.pushed then some { l.wakeup with pushed := l.pushed - 1 } else none
  | .otherQuit => some { l with quit := true, quitting := l.quitting + 1 }
  | .otherQuitting =>
      if 0 < l.quitting then some { l.wakeup with quitting := l.quitting - 1 } else none

/-! ## What a step does -/

/-- The steps of the loop thread, each with the place it is taken from. -/
inductive LoopStep (l : EventLoop T) : LoopAction T → EventLoop T → Prop where
  | loop (h : l.place = .outside) : LoopStep l .loop { l with place := .test, looping := true }
  | leave (h : l.place = .test) (hquit : l.quit = true) :
      LoopStep l .test { l with place := .outside, looping := false }
  | stay (h : l.place = .test) (hquit : l.quit = false) :
      LoopStep l .test { l with place := .waiting }
  | wait {active : List Event} (h : l.place = .waiting)
      (hready : .wakeup ∈ active → l.counter ≠ 0) :
      LoopStep l (.wait active) { l with place := .dispatch active }
  | handleEvents {e : Event} {active : List Event} (h : l.place = .dispatch (e :: active)) :
      LoopStep l .handleEvents { l.handle e with place := .dispatch active }
  | swap (h : l.place = .dispatch []) : LoopStep l .swap { l with
      place := .running l.pendingTasks, pendingTasks := [], doingPendingTasks := true }
  | runTask {task : T} {tasksDump : List T} (h : l.place = .running (task :: tasksDump)) :
      LoopStep l .runTask { l with place := .running tasksDump }
  | finish (h : l.place = .running []) :
      LoopStep l .finish { l with place := .test, doingPendingTasks := false }
  | push {task : T} (h : l.place.isUser = true) : LoopStep l (.push task) { l with
      pendingTasks := l.pendingTasks ++ [task], queueing := true }
  | quit (h : l.place.isUser = true) : LoopStep l .quit { l with quit := true }

theorem loopStep_of_stepLoop {l l' : EventLoop T} {a : LoopAction T}
    (hstep : l.stepLoop a = some l') : LoopStep l a l' := by
  cases a with
  | loop =>
      rw [stepLoop] at hstep
      split at hstep
      · rename_i h
        cases hstep
        exact .loop h
      · cases hstep
  | test =>
      rw [stepLoop] at hstep
      split at hstep
      · rename_i h
        split at hstep
        · rename_i hquit
          cases hstep
          exact .leave h hquit
        · rename_i hquit
          cases hstep
          exact .stay h (Bool.eq_false_iff.mpr hquit)
      · cases hstep
  | wait active =>
      rw [stepLoop] at hstep
      split at hstep
      · rename_i h
        split at hstep
        · cases hstep
        · rename_i hready
          cases hstep
          exact .wait h fun hmem hcounter ↦ hready ⟨hmem, hcounter⟩
      · cases hstep
  | handleEvents =>
      rw [stepLoop] at hstep
      split at hstep
      · rename_i h
        cases hstep
        exact .handleEvents h
      · cases hstep
  | swap =>
      rw [stepLoop] at hstep
      split at hstep
      · rename_i h
        cases hstep
        exact .swap h
      · cases hstep
  | runTask =>
      rw [stepLoop] at hstep
      split at hstep
      · rename_i h
        cases hstep
        exact .runTask h
      · cases hstep
  | finish =>
      rw [stepLoop] at hstep
      split at hstep
      · rename_i h
        cases hstep
        exact .finish h
      · cases hstep
  | push task =>
      rw [stepLoop] at hstep
      split at hstep
      · rename_i h
        cases hstep
        exact .push h
      · cases hstep
  | quit =>
      rw [stepLoop] at hstep
      split at hstep
      · rename_i h
        cases hstep
        exact .quit h
      · cases hstep

/-- The steps of all threads. -/
inductive Step (l : EventLoop T) : Action T → EventLoop T → Prop where
  | own {a : LoopAction T} {l' : EventLoop T} (hqueueing : l.queueing = false)
      (h : LoopStep l a l') : Step l (.own a) l'
  | ownWoken (hqueueing : l.queueing = true) (hdoing : l.doingPendingTasks = true) :
      Step l .ownPushed { l.wakeup with queueing := false }
  | ownPushed (hqueueing : l.queueing = true) (hdoing : l.doingPendingTasks = false) :
      Step l .ownPushed { l with queueing := false }
  | otherPush {task : T} : Step l (.otherPush task) { l with
      pendingTasks := l.pendingTasks ++ [task], pushed := l.pushed + 1 }
  | otherPushed (hpushed : 0 < l.pushed) :
      Step l .otherPushed { l.wakeup with pushed := l.pushed - 1 }
  | otherQuit : Step l .otherQuit { l with quit := true, quitting := l.quitting + 1 }
  | otherQuitting (hquitting : 0 < l.quitting) :
      Step l .otherQuitting { l.wakeup with quitting := l.quitting - 1 }

theorem step_cases {l l' : EventLoop T} {a : Action T} (hstep : l.step a = some l') :
    Step l a l' := by
  cases a with
  | own a =>
      rw [step, Option.ite_none_left_eq_some, Bool.not_eq_true] at hstep
      exact .own hstep.1 (loopStep_of_stepLoop hstep.2)
  | ownPushed =>
      rw [step, Option.ite_none_right_eq_some] at hstep
      obtain ⟨hqueueing, hstep⟩ := hstep
      split at hstep
      · rename_i hdoing
        cases hstep
        exact .ownWoken hqueueing hdoing
      · rename_i hdoing
        cases hstep
        exact .ownPushed hqueueing (Bool.eq_false_iff.mpr hdoing)
  | otherPush task =>
      cases hstep
      exact .otherPush
  | otherPushed =>
      rw [step, Option.ite_none_right_eq_some] at hstep
      obtain ⟨hpushed, hstep⟩ := hstep
      cases hstep
      exact .otherPushed hpushed
  | otherQuit =>
      cases hstep
      exact .otherQuit
  | otherQuitting =>
      rw [step, Option.ite_none_right_eq_some] at hstep
      obtain ⟨hquitting, hstep⟩ := hstep
      cases hstep
      exact .otherQuitting hquitting

end EventLoop

end Wuduo
