import Wuduo.EventLoop

/-!
# Quitting

A request to quit must not be slept through: when the loop thread waits although
`quit_` is set, and no call of `quit` is between its assignment and its wakeup, the
eventfd is readable (`Heard`).  Whether the loop thread's own calls of `quit`, which
write no wakeup, keep that up depends on where they are made; they are never made
while it waits.

Behind the wait the loop is left without another one (`quit_heard`).  Nothing resets
`quit_`, so what is left of the current round is all there is: `remaining` counts it,
and the steps of the loop thread use it up.
-/

namespace Wuduo.EventLoop

open Transition

variable {T : Type*}

/-- If the loop thread waits although it was told to quit, and no call of `quit` is
between its assignment and its wakeup, then the eventfd is readable. -/
def Heard (l : EventLoop T) : Prop :=
  l.place = .waiting → l.quit = true → l.quitting = 0 → l.counter ≠ 0

/-- If the loop thread waits although it was told to quit, it was woken or is about to
be. -/
def Told (l : EventLoop T) : Prop :=
  l.place = .waiting → l.quit = true → l.counter ≠ 0 ∨ 0 < l.quitting

theorem Told.heard {l : EventLoop T} (h : l.Told) : l.Heard := by
  intro hplace hquit hquitting
  rcases h hplace hquit with hcounter | hpos
  · exact hcounter
  · omega

theorem told_of_ne_waiting {l : EventLoop T} (h : l.quit = true → l.place ≠ .waiting) : l.Told :=
  fun hplace hquit ↦ absurd hplace (h hquit)

/-! ## What a step does to a loop that was told to quit -/

/-- The loop was told to quit, and does not wait. -/
structure Leaving (l : EventLoop T) : Prop where
  quit : l.quit = true
  place : l.place ≠ .waiting

theorem ne_waiting_of_isUser {p : Place T} (h : p.isUser = true) : p ≠ .waiting := by
  rintro rfl
  cases h

/-- No step of the loop thread takes a loop that was told to quit to the wait. -/
theorem ne_waiting_of_loopStep {l l' : EventLoop T} {a : LoopAction T} (hstep : LoopStep l a l')
    (hquit : l'.quit = true) : l'.place ≠ .waiting := by
  cases hstep with
  | stay _ hnot => exact absurd hquit (Bool.eq_false_iff.mp hnot)
  | push h => exact ne_waiting_of_isUser h
  | quit h => exact ne_waiting_of_isUser h
  | loop | leave | wait | handleEvents | swap | runTask | finish => exact fun h ↦ by cases h

theorem quit_of_loopStep {l l' : EventLoop T} {a : LoopAction T} (hstep : LoopStep l a l')
    (hquit : l.quit = true) : l'.quit = true := by
  cases hstep with
  | handleEvents =>
      rename_i e active h
      cases e <;> exact hquit
  | quit => rfl
  | _ => exact hquit

theorem step_told (l : EventLoop T) (a : Action T) (l' : EventLoop T) (h : l.Told)
    (hstep : l.step a = some l') : l'.Told := by
  cases step_cases hstep with
  | own _ hloop => exact told_of_ne_waiting (ne_waiting_of_loopStep hloop)
  | ownWoken | otherPushed | otherQuitting => exact fun _ _ ↦ .inl l.counter_wakeup_ne_zero
  | ownPushed | otherPush => exact h
  | otherQuit => exact fun _ _ ↦ .inr (Nat.succ_pos _)

/-- No step of another thread, and no return from `queue_in_loop`, moves the loop thread or
takes back the request. -/
theorem Leaving.of_step {l l' : EventLoop T} {a : Action T} (h : l.Leaving)
    (hstep : l.step a = some l') : l'.Leaving := by
  cases step_cases hstep with
  | own _ hloop =>
      have hquit := quit_of_loopStep hloop h.quit
      exact ⟨hquit, ne_waiting_of_loopStep hloop hquit⟩
  | otherQuit => exact ⟨rfl, h.place⟩
  | ownWoken | ownPushed | otherPush | otherPushed | otherQuitting => exact ⟨h.quit, h.place⟩

/-! ## What is left of a round -/

/-- The steps by which the loop thread goes on in `loop()`. -/
def LoopAction.goesOn : LoopAction T → Bool
  | .loop | .push _ | .quit => false
  | .test | .wait _ | .handleEvents | .swap | .runTask | .finish => true

def Action.goesOn : Action T → Bool
  | .own a => a.goesOn
  | _ => false

/-- The steps that add a task. -/
def Action.isPush : Action T → Bool
  | .own (.push _) | .otherPush _ => true
  | _ => false

/-- The steps that are left of a round, with the test behind it. -/
def remaining (l : EventLoop T) : Nat :=
  match l.place with
  | .outside | .waiting => 0
  | .test => 1
  | .dispatch active => active.length + l.pendingTasks.length + 3
  | .running tasksDump => tasksDump.length + 2

theorem remaining_push_le (l : EventLoop T) (task : T) (own : Bool) (pushed : Nat) :
    remaining { l with
      pendingTasks := l.pendingTasks ++ [task], queueing := own, pushed := pushed } ≤
      l.remaining + 1 := by
  unfold remaining
  cases l.place with
  | dispatch active =>
      simp only [List.length_append, List.length_singleton]
      omega
  | outside | waiting | test | running => exact Nat.le_succ _

theorem remaining_eq_of_place {l l' : EventLoop T} (hplace : l'.place = l.place)
    (htasks : l'.pendingTasks = l.pendingTasks) : l'.remaining = l.remaining := by
  unfold remaining
  rw [hplace, htasks]

/-- A step by which the loop thread goes on uses up one of the steps that are left. -/
theorem remaining_loopStep {l l' : EventLoop T} {a : LoopAction T} (h : l.Leaving)
    (hloop : a ≠ .loop) (hstep : LoopStep l a l') :
    (if a.goesOn then 1 else 0) + l'.remaining ≤
      l.remaining + if (Action.own a).isPush then 1 else 0 := by
  cases hstep with
  | loop => exact absurd rfl hloop
  | leave hplace =>
      simp only [remaining, hplace]
      exact Nat.le_refl _
  | stay _ hquit => exact absurd h.quit (Bool.eq_false_iff.mp hquit)
  | wait hplace => exact absurd hplace h.place
  | handleEvents hplace =>
      rename_i e active
      have hhandle : (l.handle e).pendingTasks = l.pendingTasks := by cases e <;> rfl
      simp only [remaining, hplace, hhandle, List.length_cons, LoopAction.goesOn, if_true]
      omega
  | swap hplace =>
      simp only [remaining, hplace, List.length_nil, LoopAction.goesOn, if_true]
      omega
  | runTask hplace =>
      simp only [remaining, hplace, List.length_cons, LoopAction.goesOn, if_true]
      omega
  | finish hplace =>
      simp only [remaining, hplace]
      exact Nat.le_refl _
  | push =>
      exact le_of_eq_of_le (Nat.zero_add _) (remaining_push_le l _ true l.pushed)
  | quit => exact Nat.le_of_eq (Nat.zero_add _)

theorem remaining_step (l : EventLoop T) (a : Action T) (l' : EventLoop T) (h : l.Leaving)
    (hloop : a ≠ .own .loop) (hstep : l.step a = some l') :
    (if a.goesOn then 1 else 0) + l'.remaining ≤ l.remaining + if a.isPush then 1 else 0 := by
  -- what is neither a step of the loop thread nor a push
  have still : l'.place = l.place → l'.pendingTasks = l.pendingTasks →
      0 + l'.remaining ≤ l.remaining + 0 := fun hplace htasks ↦
    Nat.le_of_eq (by rw [Nat.zero_add, Nat.add_zero, remaining_eq_of_place hplace htasks])
  cases step_cases hstep with
  | own _ hstep => exact remaining_loopStep h (fun ha ↦ hloop (by rw [ha])) hstep
  | @otherPush task =>
      exact le_of_eq_of_le (Nat.zero_add _) (remaining_push_le l task l.queueing _)
  | ownWoken | ownPushed | otherPushed | otherQuit | otherQuitting => exact still rfl rfl

/-- The loop thread can always go on. -/
theorem exists_goesOn {l : EventLoop T} (h : l.Leaving) (hq : l.queueing = false)
    (hplace : l.place ≠ .outside) :
    ∃ a, LoopAction.goesOn a = true ∧ (l.step (.own a)).isSome = true := by
  have own : ∀ a, l.step (.own a) = l.stepLoop a := fun a ↦ by
    rw [step, hq]
    rfl
  rcases hp : l.place with _ | _ | _ | (_ | ⟨e, active⟩) | (_ | ⟨task, tasksDump⟩)
  · exact absurd hp hplace
  · exact ⟨.test, rfl, by rw [own, stepLoop, hp, h.quit]; rfl⟩
  · exact absurd hp h.place
  · exact ⟨.swap, rfl, by rw [own, stepLoop, hp]; rfl⟩
  · exact ⟨.handleEvents, rfl, by rw [own, stepLoop, hp]; rfl⟩
  · exact ⟨.finish, rfl, by rw [own, stepLoop, hp]; rfl⟩
  · exact ⟨.runTask, rfl, by rw [own, stepLoop, hp]; rfl⟩

/-! ## Runs -/

theorem Leaving.of_run {l l' : EventLoop T} {as : List (Action T)} (h : l.Leaving)
    (hrun : run step l as = some l') : l'.Leaving :=
  run_invariant_of_allSteps (C := fun _ _ ↦ True) (fun _ _ _ hl _ hs ↦ hl.of_step hs) h
    (allSteps_of_forall fun _ _ ↦ trivial) hrun

theorem told_of_run {l : EventLoop T} {as : List (Action T)} (h : run step new as = some l) :
    l.Told :=
  run_invariant_of_allSteps (C := fun _ _ ↦ True) (fun l a l' hl _ hs ↦ step_told l a l' hl hs)
    (fun hplace ↦ by cases hplace) (allSteps_of_forall fun _ _ ↦ trivial) h

/-- A loop that is being left does not wait again. -/
theorem wait_notMem {l l' : EventLoop T} {as : List (Action T)} (h : l.Leaving)
    (hrun : run step l as = some l') (active : List Event) : .own (.wait active) ∉ as := by
  intro hmem
  obtain ⟨before, after, rfl⟩ := List.append_of_mem hmem
  obtain ⟨l₁, h₁, hrest⟩ := run_append_eq_some.mp hrun
  obtain ⟨l₂, hwait, -⟩ := run_cons_eq_some.mp hrest
  cases step_cases hwait with
  | own _ hwait =>
      cases hwait with
      | wait hplace => exact (h.of_run h₁).place hplace

/-- What is left of `loop()` once the wait has returned to a loop that was told to quit: no
other wait, as many steps of the loop thread as there are callbacks to run, tasks to run,
and three more; it can take each of them. -/
structure Leaves (active : List Event) (l : EventLoop T) (as : List (Action T))
    (l' : EventLoop T) : Prop where
  wait_notMem : ∀ active', .own (.wait active') ∉ as
  countP_le : as.countP Action.goesOn + l'.remaining ≤
    active.length + l.pendingTasks.length + 3 + as.countP Action.isPush
  exists_goesOn : l'.queueing = false → l'.place ≠ .outside →
    ∃ a, LoopAction.goesOn a = true ∧ (l'.step (.own a)).isSome = true

/-- **A request to quit is not slept through.**  In every run the eventfd is readable while
the loop thread waits, told to quit, and no call of `quit` is on its way to its wakeup; and
behind a wait that returns to a loop that was told to quit, the loop is left without another
one. -/
theorem quit_heard (as : List (Action T)) (l : EventLoop T) (h : run step new as = some l) :
    l.Heard ∧ ∀ active l₁, l.quit = true → l.step (.own (.wait active)) = some l₁ →
      ∀ bs l₂, .own .loop ∉ bs → run step l₁ bs = some l₂ → Leaves active l bs l₂ := by
  refine ⟨(told_of_run h).heard, fun active l₁ hquit hwait bs l₂ hloop hrun ↦ ?_⟩
  obtain ⟨-, hwait⟩ := step_cases hwait
  cases hwait
  have hleaving : Leaving { l with place := .dispatch active } := ⟨hquit, fun h ↦ by cases h⟩
  have hmem : ∀ a ∈ bs, a ≠ .own .loop := fun a ha heq ↦ hloop (heq ▸ ha)
  exact ⟨wait_notMem hleaving hrun,
    countP_add_potential_le (I := Leaving) (fun _ _ _ hl _ hs ↦ hl.of_step hs) remaining_step
      hleaving (allSteps_of_mem hmem) hrun,
    exists_goesOn (hleaving.of_run hrun)⟩

/-- A request while the loop thread waits, with a task that is queued meanwhile. -/
theorem quit_heard_run :
    ∃ l : EventLoop Nat, run step new [.own .loop, .own .test, .otherPush 1, .otherQuit,
        .otherPushed, .otherQuitting] = some l ∧ l.Heard ∧ l.place = .waiting ∧
      l.quit = true ∧ l.quitting = 0 ∧
      ∃ l₁ l₂, l.step (.own (.wait [.wakeup])) = some l₁ ∧
        run step l₁ [.own .handleEvents, .own .swap, .own .runTask, .own .finish, .own .test]
          = some l₂ ∧ l₂.place = .outside ∧
        Leaves [.wakeup] l [.own .handleEvents, .own .swap, .own .runTask, .own .finish,
          .own .test] l₂ := by
  have h := quit_heard (T := Nat) [.own .loop, .own .test, .otherPush 1, .otherQuit,
    .otherPushed, .otherQuitting] _ rfl
  exact ⟨_, rfl, h.1, rfl, rfl, rfl, _, _, rfl, rfl, rfl,
    h.2 [.wakeup] _ rfl rfl [.own .handleEvents, .own .swap, .own .runTask, .own .finish,
      .own .test] _ (by decide) rfl⟩

end Wuduo.EventLoop
