import Wuduo.EventLoop.Discipline

/-!
# How long a task waits

The loop thread goes in rounds: it waits, calls the callbacks, and runs what it finds in
`pending_tasks_`.  What is pending when a round comes to `do_pending_tasks` is run in it, so
a task that is pushed outside of `do_pending_tasks` is run in the current round, and one that
is pushed meanwhile in the next.  Neither the threads that go on pushing nor the tasks that
queue others can put it off (`ran_within_rounds`).

What carries the argument is `owed`: how many ends of a round it takes at most until the
first few of the waiting tasks have been run.  A step of `finish` takes one from it, and no
step adds to it (`step_owed`).
-/

namespace Wuduo.EventLoop

open Transition

variable {T : Type*}

/-- The end of a round. -/
def Action.isFinish : Action T → Bool
  | .own .finish => true
  | _ => false

/-- The rounds it takes until what is waiting has been run: the one that is going on, and
another one if it is past its swap. -/
def rounds (l : EventLoop T) : Nat :=
  match l.place with
  | .running _ => 2
  | _ => 1

/-- The rounds it takes until the first `n` of the waiting tasks have been run. -/
def owed (l : EventLoop T) (n : Nat) : Nat :=
  if n = 0 then 0 else if n ≤ l.tasksDump.length then 1 else l.rounds

theorem rounds_of_ne_running {l : EventLoop T} (h : ∀ tasksDump, l.place ≠ .running tasksDump) :
    l.rounds = 1 := by
  rw [rounds]
  split
  · rename_i tasksDump hplace
    exact absurd hplace (h tasksDump)
  · rfl

theorem rounds_running {l : EventLoop T} {tasksDump : List T} (h : l.place = .running tasksDump) :
    l.rounds = 2 := by
  rw [rounds, h]

theorem tasksDump_of_ne_running {l : EventLoop T} (h : ∀ tasksDump, l.place ≠ .running tasksDump) :
    l.tasksDump = [] := by
  rw [tasksDump]
  split
  · rename_i tasksDump hplace
    exact absurd hplace (h tasksDump)
  · rfl

theorem one_le_rounds (l : EventLoop T) : 1 ≤ l.rounds := by
  rw [rounds]
  split
  · exact Nat.le_succ 1
  · exact Nat.le_refl 1

theorem rounds_le_two (l : EventLoop T) : l.rounds ≤ 2 := by
  rw [rounds]
  split
  · exact Nat.le_refl 2
  · exact Nat.le_succ 1

theorem owed_le_rounds (l : EventLoop T) (n : Nat) : l.owed n ≤ l.rounds := by
  rw [owed]
  split
  · exact Nat.zero_le _
  · split
    · exact l.one_le_rounds
    · exact Nat.le_refl _

/-- What is still to be run takes a round. -/
theorem one_le_owed (l : EventLoop T) {n : Nat} (hn : 0 < n) : 1 ≤ l.owed n := by
  rw [owed, if_neg (Nat.ne_of_gt hn)]
  split
  · exact Nat.le_refl 1
  · exact l.one_le_rounds

/-- What has been taken out is run in the current round. -/
theorem owed_le_one {l : EventLoop T} {n : Nat} (h : n ≤ l.tasksDump.length) : l.owed n ≤ 1 := by
  rw [owed, if_pos h]
  split
  · exact Nat.zero_le 1
  · exact Nat.le_refl 1

theorem owed_congr {l l' : EventLoop T} (hplace : l'.place = l.place) (n : Nat) :
    l'.owed n = l.owed n := by
  rw [owed, owed, tasksDump, tasksDump, rounds, rounds, hplace]

/-- Outside of `do_pending_tasks` it does not matter where the loop thread is. -/
theorem owed_of_ne_running {l l' : EventLoop T} (h : ∀ tasksDump, l.place ≠ .running tasksDump)
    (h' : ∀ tasksDump, l'.place ≠ .running tasksDump) (n : Nat) : l'.owed n = l.owed n := by
  rw [owed, owed, tasksDump_of_ne_running h, tasksDump_of_ne_running h', rounds_of_ne_running h,
    rounds_of_ne_running h']

/-! ## Steps -/

/-- What waits for its turn does so until it is run. -/
theorem step_waiting_length {l l' : EventLoop T} {a : Action T} (h : l.step a = some l') :
    l.tasks.waiting.length ≤ (l.ranBy a).length + l'.tasks.waiting.length := by
  have hlength := congrArg List.length (step_waiting h)
  rw [List.length_append, List.length_append] at hlength
  omega

theorem loopStep_owed {l l' : EventLoop T} {a : LoopAction T} {n : Nat} (hpos : 0 < n)
    (hn : n ≤ l.tasks.waiting.length) (h : LoopStep l a l') :
    l'.owed (n - (l.ranBy (.own a)).length) + (if (Action.own a).isFinish then 1 else 0) ≤
      l.owed n := by
  cases h with
  | loop hplace | leave hplace | stay hplace | wait hplace =>
      exact Nat.le_of_eq (owed_of_ne_running (by simp [hplace]) (by simp) n)
  | @handleEvents e active hplace =>
      exact Nat.le_of_eq (owed_of_ne_running (by simp [hplace]) (by simp) n)
  | swap hplace =>
      have hdump : l.tasksDump = [] := tasksDump_of_ne_running (by simp [hplace])
      rw [tasks, BatchQueue.waiting, hdump] at hn
      exact Nat.le_trans (owed_le_one hn) (l.one_le_owed hpos)
  | @runTask task tasksDump hplace =>
      have hran : l.ranBy (.own .runTask) = [task] := by
        rw [ranBy, EventLoop.tasksDump, hplace]
        rfl
      have hle : n - 1 ≤ tasksDump.length ↔ n ≤ tasksDump.length + 1 := Nat.sub_le_iff_le_add
      have hrounds : l.rounds = 2 := rounds_running hplace
      rw [hran, List.length_singleton, owed, owed, tasksDump_of_place hplace, List.length_cons,
        hrounds, if_neg (Nat.ne_of_gt hpos)]
      split
      · exact Nat.zero_le _
      · exact Nat.le_of_eq (if_congr hle rfl rfl)
  | finish hplace =>
      have howed : l.owed n = 2 := by
        rw [owed, tasksDump_of_place hplace, List.length_nil, if_neg (Nat.ne_of_gt hpos),
          if_neg (Nat.not_le_of_gt hpos), rounds_running hplace]
      rw [howed]
      exact Nat.succ_le_succ (owed_le_rounds _ n)
  | push => exact Nat.le_of_eq (owed_congr rfl n)
  | quit => exact Nat.le_of_eq (owed_congr rfl n)

/-- Each end of a round is one that is owed, and nothing adds to what is. -/
theorem step_owed {l l' : EventLoop T} {a : Action T} {n : Nat} (hpos : 0 < n)
    (hn : n ≤ l.tasks.waiting.length) (h : l.step a = some l') :
    l'.owed (n - (l.ranBy a).length) + (if a.isFinish then 1 else 0) ≤ l.owed n := by
  cases step_cases h with
  | own _ h => exact loopStep_owed hpos hn h
  | ownWoken | ownPushed | otherPush | otherPushed | otherQuit | otherQuitting =>
      exact Nat.le_of_eq (owed_congr rfl n)

/-! ## Runs -/

/-- After as many ends of a round as are owed, the first `n` waiting tasks have been run. -/
theorem le_length_ranIn {l l' : EventLoop T} {n : Nat} {as : List (Action T)}
    (hn : n ≤ l.tasks.waiting.length) (h : run step l as = some l')
    (howed : l.owed n ≤ as.countP Action.isFinish) : n ≤ (l.ranIn as).length := by
  induction as generalizing l n with
  | nil =>
      have hzero : n = 0 := by
        by_contra hne
        have := l.one_le_owed (Nat.pos_of_ne_zero hne)
        rw [List.countP_nil] at howed
        omega
      rw [hzero]
      exact Nat.zero_le _
  | cons a as ih =>
      obtain ⟨u, hu, hrest⟩ := run_cons_eq_some.mp h
      rcases Nat.eq_zero_or_pos n with rfl | hpos
      · exact Nat.zero_le _
      · have hstep := step_owed hpos hn hu
        have hwaiting := step_waiting_length hu
        rw [List.countP_cons] at howed
        have hrec := ih (n := n - (l.ranBy a).length) (by omega) hrest (by omega)
        rw [ranIn, outputs_cons hu, List.length_append]
        exact Nat.sub_le_iff_le_add'.mp hrec

/-- First in, first out, in each run. -/
theorem run_waiting {l l' : EventLoop T} {as : List (Action T)} (h : run step l as = some l') :
    l.tasks.waiting ++ l.pushedIn as = l.ranIn as ++ l'.tasks.waiting :=
  outputs_conserved (I := fun _ ↦ True) (C := fun _ _ ↦ True) (f := pushedBy) (g := ranBy)
    (r := fun l : EventLoop T ↦ l.tasks.waiting) (fun _ _ _ _ _ _ ↦ trivial)
    (fun _ _ _ _ _ hstep ↦ step_waiting hstep) trivial (allSteps_of_forall fun _ _ ↦ trivial) h

/-- What waits for its turn has been run after as many ends of a round as it takes. -/
theorem waiting_prefix_ranIn {l l' : EventLoop T} {as : List (Action T)}
    (h : run step l as = some l') (hrounds : l.rounds ≤ as.countP Action.isFinish) :
    l.tasks.waiting <+: l.ranIn as := by
  have hlength : l.tasks.waiting.length ≤ (l.ranIn as).length :=
    le_length_ranIn (Nat.le_refl _) h (Nat.le_trans (l.owed_le_rounds _) hrounds)
  exact List.prefix_of_prefix_length_le ⟨l.pushedIn as, run_waiting h⟩ (List.prefix_append _ _)
    hlength

/-- **No task is put off.**  What was pushed up to some moment has been run, in the order in
which it was pushed, when the round that is going on then has ended, and another one if that
was already past its swap; whatever is pushed meanwhile, by whomever. -/
theorem ran_within_rounds (before after : List (Action T)) (l l' : EventLoop T)
    (h : run step new before = some l) (h' : run step l after = some l')
    (hrounds : l.rounds ≤ after.countP Action.isFinish) :
    new.pushedIn before <+: new.ranIn (before ++ after) := by
  have hpushed : new.pushedIn before = new.ranIn before ++ l.tasks.waiting := run_waiting h
  have hran : new.ranIn (before ++ after) = new.ranIn before ++ l.ranIn after := outputs_append h
  rw [hpushed, hran, List.prefix_append_right_inj]
  exact waiting_prefix_ranIn h' hrounds

/-- A task is pushed while a batch is run, and others, by a task too, before it is its turn. -/
theorem ran_within_rounds_run :
    ∃ l l' : EventLoop Nat,
      run step new [.own .loop, .otherPush 1, .own .test, .own (.wait []), .own .swap,
        .otherPush 2] = some l ∧
      run step l [.own .runTask, .own (.push 3), .ownPushed, .own .finish, .own .test,
        .own (.wait [.wakeup]), .otherPush 4, .own .handleEvents, .own .swap, .own .runTask,
        .own (.push 5), .ownPushed, .own .runTask, .own .runTask, .own .finish] = some l' ∧
      l'.pendingTasks = [5] ∧
      [1, 2] <+: new.ranIn (T := Nat) ([.own .loop, .otherPush 1, .own .test, .own (.wait []),
        .own .swap, .otherPush 2] ++ [.own .runTask, .own (.push 3), .ownPushed, .own .finish,
        .own .test, .own (.wait [.wakeup]), .otherPush 4, .own .handleEvents, .own .swap,
        .own .runTask, .own (.push 5), .ownPushed, .own .runTask, .own .runTask,
        .own .finish]) :=
  ⟨_, _, rfl, rfl, rfl, ran_within_rounds [.own .loop, .otherPush 1, .own .test, .own (.wait []),
    .own .swap, .otherPush 2] _ _ _ rfl rfl (by decide)⟩

end Wuduo.EventLoop
