import Wuduo.EventLoop
import Wuduo.Lib.BatchQueue

/-!
# The discipline of the task queue

The tasks of a loop are a queue that is worked off in batches: a batch is what
`do_pending_tasks` swaps out, and it is let go of at its end.  So they are run in the
order in which they were pushed, whoever pushed them and whenever (`inOrder`).

What is pushed while a batch is run does not get into it.  A call of `do_pending_tasks`
therefore runs what was pending at its swap (`InCall.taken`), and needs no more steps
than that to come to its end, whatever the tasks queue meanwhile (`InCall.ends`).
-/

namespace Wuduo.EventLoop

open Transition

variable {T : Type*}

/-- The tasks `do_pending_tasks` has taken out and not run. -/
def tasksDump (l : EventLoop T) : List T :=
  match l.place with
  | .running tasksDump => tasksDump
  | _ => []

/-- The tasks as a queue, without those of the current batch that were run. -/
def tasks (l : EventLoop T) : BatchQueue T := ⟨[], l.tasksDump, l.pendingTasks⟩

/-- The task that a step pushes. -/
def pushedBy (_ : EventLoop T) : Action T → List T
  | .own (.push task) | .otherPush task => [task]
  | _ => []

/-- The task that a step runs. -/
def ranBy (l : EventLoop T) : Action T → List T
  | .own .runTask => l.tasksDump.take 1
  | _ => []

/-- The tasks pushed in a run. -/
def pushedIn (l : EventLoop T) (as : List (Action T)) : List T := outputs step pushedBy l as

/-- The tasks run in a run. -/
def ranIn (l : EventLoop T) (as : List (Action T)) : List T := outputs step ranBy l as

/-! ## Steps -/

/-- What a step does to the tasks: what the operations of a batch queue do, or nothing. -/
inductive Moves (l l' : EventLoop T) (a : Action T) : Prop where
  | push {task : T} (hpushed : l.pushedBy a = [task]) (hran : l.ranBy a = [])
      (h : l'.tasks = l.tasks.push task) (hplace : l'.place = l.place)
  | swap (hpushed : l.pushedBy a = []) (hran : l.ranBy a = [])
      (h : l.tasks.swap = some l'.tasks) (hplace : ∀ tasksDump, l.place ≠ .running tasksDump)
  | runTask {task : T} (hpushed : l.pushedBy a = []) (hran : l.ranBy a = [task])
      (h : l.tasks.next = some (task, { l'.tasks with done := [task] }))
      (hplace : l'.place = .running l'.tasksDump)
  | finish (ha : a = .own .finish) (hpushed : l.pushedBy a = []) (hran : l.ranBy a = [])
      (h : l.tasks.finish = some l'.tasks)
  | other (hpushed : l.pushedBy a = []) (hran : l.ranBy a = []) (h : l'.tasks = l.tasks)
      (hplace : ∀ tasksDump, l.place = .running tasksDump → l'.place = l.place)

/-- A step between places at which no tasks are taken out. -/
theorem Moves.of_places {l l' : EventLoop T} {a : Action T} (hpushed : l.pushedBy a = [])
    (hran : l.ranBy a = []) (hplace : ∀ d, l.place ≠ .running d)
    (hplace' : ∀ d, l'.place ≠ .running d) (hpending : l'.pendingTasks = l.pendingTasks) :
    l.Moves l' a := by
  have hdump {l : EventLoop T} (h : ∀ d, l.place ≠ .running d) : l.tasksDump = [] := by
    rw [tasksDump]
    split
    · rename_i d hd
      exact absurd hd (h d)
    · rfl
  exact .other hpushed hran (by rw [tasks, tasks, hdump hplace, hdump hplace', hpending])
    fun d hd ↦ absurd hd (hplace d)

theorem loopStep_moves {l l' : EventLoop T} {a : LoopAction T} (h : LoopStep l a l') :
    l.Moves l' (.own a) := by
  cases h with
  | loop hplace => exact .of_places rfl rfl (by simp [hplace]) (by simp) rfl
  | leave hplace => exact .of_places rfl rfl (by simp [hplace]) (by simp) rfl
  | stay hplace => exact .of_places rfl rfl (by simp [hplace]) (by simp) rfl
  | wait hplace => exact .of_places rfl rfl (by simp [hplace]) (by simp) rfl
  | @handleEvents e active hplace =>
      exact .of_places rfl rfl (by simp [hplace]) (by simp) (by cases e <;> rfl)
  | swap hplace =>
      refine .swap rfl rfl ?_ (by simp [hplace])
      rw [tasks, tasksDump, hplace]
      rfl
  | @runTask task tasksDump hplace =>
      have hran : l.ranBy (.own .runTask) = [task] := by
        rw [ranBy, EventLoop.tasksDump, hplace]
        rfl
      refine .runTask rfl hran ?_ rfl
      rw [tasks, EventLoop.tasksDump, hplace]
      rfl
  | finish hplace =>
      refine .finish rfl rfl rfl ?_
      rw [tasks, tasksDump, hplace]
      rfl
  | push => exact .push rfl rfl rfl rfl
  | quit => exact .other rfl rfl rfl fun _ _ ↦ rfl

/-- The steps of a loop are those of a batch queue, and steps that do not concern it. -/
theorem step_moves {l l' : EventLoop T} {a : Action T} (h : l.step a = some l') :
    l.Moves l' a := by
  cases step_cases h with
  | own _ h => exact loopStep_moves h
  | otherPush => exact .push rfl rfl rfl rfl
  | ownWoken | ownPushed | otherPushed | otherQuit | otherQuitting =>
      exact .other rfl rfl rfl fun _ _ ↦ rfl

/-- First in, first out, in each step. -/
theorem step_waiting {l l' : EventLoop T} {a : Action T} (h : l.step a = some l') :
    l.tasks.waiting ++ l.pushedBy a = l.ranBy a ++ l'.tasks.waiting := by
  cases step_moves h with
  | push hpushed hran h => rw [hpushed, hran, h, BatchQueue.waiting_push, List.nil_append]
  | swap hpushed hran h =>
      rw [hpushed, hran, BatchQueue.waiting_swap h, List.append_nil, List.nil_append]
  | runTask hpushed hran h =>
      rw [hpushed, hran, BatchQueue.waiting_next h, List.append_nil]
      rfl
  | finish ha hpushed hran h =>
      rw [hpushed, hran, BatchQueue.waiting_finish h, List.append_nil, List.nil_append]
  | other hpushed hran h => rw [hpushed, hran, h, List.append_nil, List.nil_append]

/-- Nothing gets into a batch, and only `finish` ends it. -/
theorem step_running {l l' : EventLoop T} {a : Action T} (hplace : l.place = .running l.tasksDump)
    (ha : a ≠ .own .finish) (h : l.step a = some l') :
    l'.place = .running l'.tasksDump ∧ l.tasksDump = l.ranBy a ++ l'.tasksDump := by
  cases step_moves h with
  | push _ hran htasks hplace' =>
      have hdump : l'.tasksDump = l.tasksDump := congrArg BatchQueue.rest htasks
      exact ⟨by rw [hplace', hplace, hdump], by rw [hran, hdump, List.nil_append]⟩
  | swap _ _ _ hne => exact absurd hplace (hne _)
  | runTask _ hran hnext hplace' =>
      obtain ⟨hrest, -, -⟩ := BatchQueue.next_eq_some.mp hnext
      exact ⟨hplace', by rw [hran]; exact hrest⟩
  | finish hfinish => exact absurd hfinish ha
  | other _ hran htasks hplace' =>
      have hdump : l'.tasksDump = l.tasksDump := congrArg BatchQueue.rest htasks
      exact ⟨by rw [hplace' _ hplace, hplace, hdump], by rw [hran, hdump, List.nil_append]⟩

theorem tasksDump_of_place {l : EventLoop T} {tasksDump : List T}
    (h : l.place = .running tasksDump) : l.tasksDump = tasksDump := by
  rw [EventLoop.tasksDump, h]

theorem step_own {l : EventLoop T} (h : l.queueing = false) (a : LoopAction T) :
    l.step (.own a) = l.stepLoop a := by
  rw [step, h, if_neg Bool.false_ne_true]

/-- The loop thread runs what is left of the batch, and is through. -/
theorem run_running {l : EventLoop T} {tasksDump : List T} (hplace : l.place = .running tasksDump)
    (hqueueing : l.queueing = false) :
    run step l (List.replicate tasksDump.length (.own .runTask) ++ [.own .finish])
      = some { l with place := .test, doingPendingTasks := false } := by
  induction tasksDump generalizing l with
  | nil =>
      refine run_cons_eq_some.mpr ⟨_, ?_, rfl⟩
      rw [step_own hqueueing, stepLoop, hplace]
  | cons task tasksDump ih =>
      refine run_cons_eq_some.mpr ⟨{ l with place := .running tasksDump }, ?_, ih rfl hqueueing⟩
      rw [step_own hqueueing, stepLoop, hplace]

/-! ## Runs -/

/-- A call of `do_pending_tasks` that swapped in `l₀` and is at `l` after the steps `call`. -/
structure InCall (l₀ : EventLoop T) (call : List (Action T)) (l : EventLoop T) : Prop where
  place : l.place = .running l.tasksDump
  /-- what was pending at the swap was run or is still to be, -/
  taken : l₀.pendingTasks = l₀.ranIn (.own .swap :: call) ++ l.tasksDump
  /-- the call is over when all of it was run, -/
  returns : ∀ l', l.step (.own .finish) = some l' →
    l₀.pendingTasks = l₀.ranIn (.own .swap :: call)
  /-- to which it needs that many steps, -/
  ends : l.queueing = false → ∃ l', l'.place = .test ∧
    run step l (List.replicate l.tasksDump.length (.own .runTask) ++ [.own .finish]) = some l'
  /-- with no obstacle but a call of `queue_in_loop` from a task, which returns -/
  queueing : l.queueing = true → ∃ l', l.step .ownPushed = some l' ∧ l'.queueing = false ∧
    l'.place = l.place

/-- Until it is finished, a call only runs what it has swapped out. -/
theorem inCall {l₀ l : EventLoop T} {call : List (Action T)} (hcall : .own .finish ∉ call)
    (h : run step l₀ (.own .swap :: call) = some l) : InCall l₀ call l := by
  obtain ⟨l₁, hswap, hrun⟩ := run_cons_eq_some.mp h
  have hplace₁ : l₁.place = .running l₀.pendingTasks := by
    cases step_cases hswap with
    | own _ h =>
        cases h
        rfl
  have hdump₁ := tasksDump_of_place hplace₁
  have hsteps : AllSteps step (fun _ a ↦ a ≠ .own .finish) l₁ call :=
    allSteps_of_mem fun a ha heq ↦ hcall (heq ▸ ha)
  have hplace : l.place = .running l.tasksDump :=
    run_invariant_of_allSteps (I := fun l ↦ l.place = .running l.tasksDump)
      (fun _ _ _ hplace ha hstep ↦ (step_running hplace ha hstep).1) (by rw [hplace₁, hdump₁])
      hsteps hrun
  have htaken : l₀.pendingTasks = l₀.ranIn (.own .swap :: call) ++ l.tasksDump := by
    have hconserved := outputs_conserved (I := fun l ↦ l.place = .running l.tasksDump)
      (f := fun _ _ ↦ []) (g := ranBy) (r := tasksDump)
      (fun _ _ _ hplace ha hstep ↦ (step_running hplace ha hstep).1)
      (fun _ _ _ hplace ha hstep ↦ by
        rw [List.append_nil]
        exact (step_running hplace ha hstep).2)
      (by rw [hplace₁, hdump₁]) hsteps hrun
    rw [outputs_nothing, List.append_nil, hdump₁] at hconserved
    rw [hconserved, ranIn, outputs_cons hswap]
    rfl
  refine ⟨hplace, htaken, ?_, fun hq ↦ ⟨_, rfl, run_running hplace hq⟩, ?_⟩
  · intro l' hfinish
    rw [step, Option.ite_none_left_eq_some, stepLoop, hplace] at hfinish
    cases hdump : l.tasksDump with
    | nil => rw [htaken, hdump, List.append_nil]
    | cons task tasksDump =>
        rw [hdump] at hfinish
        cases hfinish.2
  · intro hq
    rw [step, if_pos hq]
    split
    · exact ⟨_, rfl, rfl, rfl⟩
    · exact ⟨_, rfl, rfl, rfl⟩

/-- **The discipline of the queue.**  At every moment, what was pushed was run, is taken
out to be run, or is pending, in this order; and what is run by a call of
`do_pending_tasks` is what was pending at its swap. -/
theorem queue_discipline (as : List (Action T)) (l : EventLoop T) (h : run step new as = some l) :
    new.pushedIn as = new.ranIn as ++ l.tasksDump ++ l.pendingTasks ∧
    new.ranIn as <+: new.pushedIn as ∧
    ∀ before call l₀, as = before ++ .own .swap :: call → .own .finish ∉ call →
      run step new before = some l₀ → InCall l₀ call l := by
  have hconserved := outputs_conserved (I := fun _ ↦ True) (C := fun _ _ ↦ True)
    (f := pushedBy) (g := ranBy) (r := fun l : EventLoop T ↦ l.tasks.waiting)
    (fun _ _ _ _ _ _ ↦ trivial) (fun _ _ _ _ _ hstep ↦ step_waiting hstep) trivial
    (allSteps_of_forall fun _ _ ↦ trivial) h
  have horder : new.pushedIn as = new.ranIn as ++ l.tasksDump ++ l.pendingTasks := by
    rw [List.append_assoc]
    exact hconserved
  refine ⟨horder, ⟨_, by rw [horder, List.append_assoc]⟩, ?_⟩
  intro before call l₀ has hcall hbefore
  rw [has, run_append_eq_some] at h
  obtain ⟨l₀', hbefore', hrun⟩ := h
  rw [hbefore] at hbefore'
  cases hbefore'
  exact inCall hcall hrun

/-- A task that queues itself again when it is run, while another thread pushes: both are
left to the next batch. -/
theorem queue_discipline_run :
    ∃ l₀ l : EventLoop Nat,
      run step new [.otherPush 7, .own .loop, .own .test, .otherPushed, .own (.wait [.wakeup]),
        .own .handleEvents] = some l₀ ∧
      run step new [.otherPush 7, .own .loop, .own .test, .otherPushed, .own (.wait [.wakeup]),
        .own .handleEvents, .own .swap, .own .runTask, .otherPush 8, .own (.push 7)] = some l ∧
      l.pendingTasks = [8, 7] ∧ InCall l₀ [.own .runTask, .otherPush 8, .own (.push 7)] l :=
  ⟨_, _, rfl, rfl, rfl, (queue_discipline
    [.otherPush 7, .own .loop, .own .test, .otherPushed, .own (.wait [.wakeup]),
      .own .handleEvents, .own .swap, .own .runTask, .otherPush 8, .own (.push 7)] _ rfl).2.2
    [.otherPush 7, .own .loop, .own .test, .otherPushed, .own (.wait [.wakeup]),
      .own .handleEvents] [.own .runTask, .otherPush 8, .own (.push 7)] _ rfl (by decide) rfl⟩

end Wuduo.EventLoop
