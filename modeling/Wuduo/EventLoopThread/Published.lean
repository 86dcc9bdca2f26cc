import Wuduo.EventLoopThread

/-!
# The loop that `start()` returns

`start()` returns a pointer to a loop on the stack of the thread it creates, and the pool
hands it out to whoever asks for a loop.  The loop is destroyed as soon as `loop()` has
returned, so the pointer is good for as long as nobody tells the loop to quit.

What the threads do to the loop, each in its own place, is a run of `EventLoop` from its
constructor on: so what holds of the runs of a loop holds of this one.

## Results

* `published_runs`: whatever the threads do, the loop on the stack is the one its calls lead
  to, and it exists from the return of `start()` on until it has been told to quit.
-/

namespace Wuduo

open Transition

/-- The calls of `quit`, up to the assignment. -/
def EventLoop.Action.isQuit {T : Type*} : EventLoop.Action T → Bool
  | .own .quit | .otherQuit => true
  | _ => false

namespace EventLoop

variable {T : Type*}

/-- Only a call of `quit` makes a loop quit. -/
theorem quit_of_step {l l' : EventLoop T} {a : Action T} (h : l.step a = some l') :
    l'.quit = (l.quit || a.isQuit) := by
  cases step_cases h with
  | own _ h =>
      cases h with
      | @handleEvents e => cases e <;> exact (Bool.or_false _).symm
      | quit => exact (Bool.or_true _).symm
      | _ => exact (Bool.or_false _).symm
  | otherQuit => exact (Bool.or_true _).symm
  | ownWoken | ownPushed | otherPush | otherPushed | otherQuitting =>
      exact (Bool.or_false _).symm

theorem quit_of_run {l l' : EventLoop T} {as : List (Action T)} (h : run step l as = some l') :
    l'.quit = (l.quit || as.any Action.isQuit) := by
  induction as generalizing l with
  | nil =>
      cases h
      exact (Bool.or_false _).symm
  | cons a as ih =>
      obtain ⟨u, hu, hrest⟩ := run_cons_eq_some.mp h
      rw [ih hrest, quit_of_step hu, List.any_cons, Bool.or_assoc]

/-- Only the loop thread moves, and it leaves `loop()` only when it was told to quit. -/
theorem outside_of_step {l l' : EventLoop T} {a : Action T} (h : l.step a = some l')
    (hplace : l'.place.isOutside = true) : l.place.isOutside = true ∨ l.quit = true := by
  cases step_cases h with
  | own _ h =>
      cases h with
      | leave _ hquit => exact .inr hquit
      | push | quit => exact .inl hplace
      | _ => cases hplace
  | _ => exact .inl hplace

end EventLoop

namespace EventLoopThread.State

variable {T : Type*}

/-- What a step does to the loop. -/
def calls (_ : State T) : Action T → List (EventLoop.Action T)
  | .owner .quit => [.otherQuit]
  | .owner .wakeup => [.otherQuitting]
  | .worker .enter => [.own .loop]
  | .worker (.inside a) | .outside a => [a]
  | _ => []

/-- A step, as far as it concerns the loop and the thread it is on. -/
inductive Stepped (s : State T) (a : Action T) (s' : State T) : Prop where
  | start (hcalls : s.calls a = []) (hstarted : s.object.started = false)
      (hworker : s'.worker = .created) (hstack : s'.stack = s.stack)
  | still (hcalls : s.calls a = []) (hworker : s'.worker = s.worker) (hstack : s'.stack = s.stack)
  | construct (hcalls : s.calls a = []) (hcreated : s.worker = .created)
      (hworker : s'.worker = .constructed) (hstack : s'.stack = .new)
  | publish (hcalls : s.calls a = []) (hconstructed : s.worker = .constructed)
      (hworker : s'.worker = .published) (hstack : s'.stack = s.stack)
  | enter (hcalls : s.calls a = [.own .loop]) (hpublished : s.worker = .published)
      (hworker : s'.worker = .looping) (h : s.stack.step (.own .loop) = some s'.stack)
  | call {b : EventLoop.Action T} (hcalls : s.calls a = [b]) (hloop : s.worker.hasLoop = true)
      (hworker : s'.worker = s.worker) (h : s.stack.step b = some s'.stack)
      (hplace : b.isOutside = true ∨ s.stack.place.isOutside = false)
  | leave (hcalls : s.calls a = []) (hlooping : s.worker = .looping)
      (hplace : s.stack.place.isOutside = true) (hworker : s'.worker = .returned)
      (hstack : s'.stack = s.stack)
  | ended (hcalls : s.calls a = []) (hreturned : s.worker = .returned ∨ s.worker = .reset)
      (hworker : s'.worker = .reset ∨ s'.worker = .over) (hstack : s'.stack = s.stack)

theorem onStack_eq_some {s s' : State T} {b : EventLoop.Action T} :
    s.onStack b = some s' ↔ s.worker.hasLoop = true ∧
      ∃ l, s.stack.step b = some l ∧ s' = { s with stack := l } := by
  rw [onStack, Option.ite_none_right_eq_some, Option.map_eq_some_iff]
  simp only [eq_comm]

theorem stepOwner_stepped {s s' : State T} {a : OwnerAction}
    (h : s.stepOwner a = some (.ok s')) : s.Stepped (.owner a) s' := by
  cases a with
  | start =>
      rw [stepOwner, Option.ite_none_right_eq_some] at h
      obtain ⟨-, h⟩ := h
      split at h
      · cases h
      · rename_i hstarted
        cases h
        exact .start rfl (Bool.eq_false_iff.mpr hstarted) rfl rfl
  | started | destroy | join =>
      rw [stepOwner, Option.ite_none_right_eq_some] at h
      obtain ⟨-, h⟩ := h
      cases h
      exact .still rfl rfl rfl
  | test | destroyMembers =>
      rw [stepOwner, Option.ite_none_right_eq_some] at h
      obtain ⟨-, h⟩ := h
      split at h <;> cases h
      all_goals exact .still rfl rfl rfl
  | quit | wakeup =>
      rw [stepOwner, Option.ite_none_right_eq_some] at h
      obtain ⟨s₁, h₁, hs'⟩ := Option.map_eq_some_iff.mp h.2
      obtain ⟨hloop, l, hl, rfl⟩ := onStack_eq_some.mp h₁
      cases hs'
      exact .call rfl hloop rfl hl (.inl rfl)

theorem stepWorker_stepped {s s' : State T} {a : WorkerAction T}
    (h : s.stepWorker a = some (.ok s')) : s.Stepped (.worker a) s' := by
  cases a with
  | construct =>
      rw [stepWorker, Option.ite_none_right_eq_some] at h
      obtain ⟨hworker, h⟩ := h
      cases h
      exact .construct rfl hworker rfl rfl
  | publish =>
      rw [stepWorker, Option.ite_none_right_eq_some] at h
      obtain ⟨hworker, h⟩ := h
      cases h
      exact .publish rfl hworker rfl rfl
  | enter =>
      rw [stepWorker, Option.ite_none_right_eq_some] at h
      obtain ⟨hworker, h⟩ := h
      obtain ⟨s₁, h₁, hs'⟩ := Option.map_eq_some_iff.mp h
      obtain ⟨-, l, hl, rfl⟩ := onStack_eq_some.mp h₁
      cases hs'
      exact .enter rfl hworker rfl hl
  | inside b =>
      rw [stepWorker, Option.ite_none_right_eq_some] at h
      obtain ⟨⟨-, hplace, -⟩, h⟩ := h
      obtain ⟨s₁, h₁, hs'⟩ := Option.map_eq_some_iff.mp h
      obtain ⟨hloop, l, hl, rfl⟩ := onStack_eq_some.mp h₁
      cases hs'
      exact .call rfl hloop rfl hl (.inr (Bool.eq_false_iff.mpr hplace))
  | leave =>
      rw [stepWorker, Option.ite_none_right_eq_some] at h
      obtain ⟨⟨hworker, hplace⟩, h⟩ := h
      cases h
      exact .leave rfl hworker hplace rfl rfl
  | reset =>
      rw [stepWorker, Option.ite_none_right_eq_some] at h
      obtain ⟨hworker, h⟩ := h
      cases h
      exact .ended rfl (.inl hworker) (.inl rfl) rfl
  | exit outcome =>
      cases outcome with
      | none =>
          rw [stepWorker, Option.ite_none_right_eq_some] at h
          obtain ⟨hworker, h⟩ := h
          cases h
          exact .ended rfl (.inr hworker) (.inr rfl) rfl
      | some e =>
          rw [stepWorker, Option.ite_none_right_eq_some] at h
          cases h.2

theorem step_stepped {s s' : State T} {a : Action T} (h : s.step a = some (.ok s')) :
    s.Stepped a s' := by
  cases a with
  | owner a => exact stepOwner_stepped h
  | worker a => exact stepWorker_stepped h
  | outside b =>
      rw [step, Option.ite_none_right_eq_some] at h
      obtain ⟨⟨-, hb⟩, h⟩ := h
      obtain ⟨s₁, h₁, hs'⟩ := Option.map_eq_some_iff.mp h
      obtain ⟨hloop, l, hl, rfl⟩ := onStack_eq_some.mp h₁
      cases hs'
      exact .call rfl hloop rfl hl (.inl hb)

/-- The loop is constructed once, and left only when it was told to quit. -/
structure Published (s : State T) : Prop where
  inv : s.Inv
  fresh : s.worker = .absent ∨ s.worker = .created → s.stack = .new
  leaves : s.worker = .looping → s.stack.place.isOutside = true → s.stack.quit = true
  left : s.worker.isPublished = true → s.worker.isRunning = false → s.stack.quit = true

theorem published_new : (new : State T).Published :=
  ⟨inv_new, fun _ ↦ rfl, fun h ↦ (by cases h), fun h ↦ (by cases h)⟩

/-- A step of the thread or beside it is what it does to the loop. -/
theorem Published.run_calls {s s' : State T} {a : Action T} (h : s.Published)
    (hstep : s.step a = some (.ok s')) :
    run EventLoop.step s.stack (s.calls a) = some s'.stack := by
  cases step_stepped hstep with
  | start hcalls _ _ hstack | still hcalls _ hstack | publish hcalls _ _ hstack
  | leave hcalls _ _ _ hstack | ended hcalls _ _ hstack => rw [hcalls, hstack, run_nil]
  | construct hcalls hcreated _ hstack => rw [hcalls, hstack, h.fresh (.inr hcreated), run_nil]
  | enter hcalls _ _ h | call hcalls _ _ h =>
      rw [hcalls]
      exact run_cons_eq_some.mpr ⟨_, h, rfl⟩

/-- Once `loop()` has been left, the loop had been told to quit, and stays so. -/
theorem Published.step {s s' : State T} {a : Action T} (h : s.Published)
    (hstep : s.step a = some (.ok s')) : s'.Published := by
  refine ⟨step_inv s a s' h.inv hstep, ?_, ?_, ?_⟩
  · intro hfresh
    cases step_stepped hstep with
    | start hcalls hstarted hworker hstack =>
        rw [hstack]
        exact h.fresh (.inl (h.inv.absent hstarted))
    | still hcalls hworker hstack =>
        rw [hworker] at hfresh
        rw [hstack]
        exact h.fresh hfresh
    | call _ hloop hworker =>
        rw [hworker] at hfresh
        rcases hfresh with hfresh | hfresh <;> rw [hfresh] at hloop <;> cases hloop
    | construct _ _ hworker | publish _ _ hworker | enter _ _ hworker | leave _ _ _ hworker =>
        rw [hworker] at hfresh
        rcases hfresh with hfresh | hfresh <;> cases hfresh
    | ended _ _ hworker =>
        rcases hworker with hworker | hworker <;> rw [hworker] at hfresh <;>
          rcases hfresh with hfresh | hfresh <;> cases hfresh
  · intro hlooping hplace
    cases step_stepped hstep with
    | still _ hworker hstack =>
        rw [hstack] at hplace ⊢
        exact h.leaves (hworker ▸ hlooping) hplace
    | enter _ _ _ hl =>
        cases EventLoop.step_cases hl with
        | own _ hl => 
            generalize s'.stack = l at hl hplace
            cases hl
            cases hplace
    | call _ _ hworker hl _ =>
        rw [EventLoop.quit_of_step hl, Bool.or_eq_true]
        rcases EventLoop.outside_of_step hl hplace with hbefore | hquit
        · exact .inl (h.leaves (hworker ▸ hlooping) hbefore)
        · exact .inl hquit
    | start _ _ hworker | construct _ _ hworker | publish _ _ hworker | leave _ _ _ hworker =>
        rw [hworker] at hlooping
        cases hlooping
    | ended _ _ hworker =>
        rcases hworker with hworker | hworker <;> rw [hworker] at hlooping <;> cases hlooping
  · intro hpublished hrunning
    cases step_stepped hstep with
    | still _ hworker hstack =>
        rw [hworker] at hpublished hrunning
        rw [hstack]
        exact h.left hpublished hrunning
    | call _ _ hworker hl =>
        rw [hworker] at hpublished hrunning
        rw [EventLoop.quit_of_step hl, h.left hpublished hrunning, Bool.true_or]
    | leave _ hlooping hplace _ hstack =>
        rw [hstack]
        exact h.leaves hlooping hplace
    | ended _ hreturned _ hstack =>
        rw [hstack]
        rcases hreturned with hreturned | hreturned
        · exact h.left (by rw [hreturned]; rfl) (by rw [hreturned]; rfl)
        · exact h.left (by rw [hreturned]; rfl) (by rw [hreturned]; rfl)
    | start _ _ hworker | construct _ _ hworker =>
        rw [hworker] at hpublished
        cases hpublished
    | publish _ _ hworker | enter _ _ hworker =>
        rw [hworker] at hrunning
        cases hrunning

/-- **The loop that `start()` returns.**  Whatever the threads do, the loop on the stack is
the one to which their calls lead from its constructor, in the order in which they are made;
and unless a call of `quit` is among them, it exists and has yet to leave `loop()` from the
moment on from which its address can be known. -/
theorem published_runs (as : List (Action T)) (s : State T)
    (h : run (liftAbort step) (.ok new) as = some (.ok s)) :
    run EventLoop.step .new (emitted step calls (.ok new) as) = some s.stack ∧
    (s.worker.isPublished = true → (∀ b ∈ emitted step calls (.ok new) as, b.isQuit = false) →
      s.worker.isRunning = true) := by
  have hruns : ∃ l, run EventLoop.step .new (emitted step calls (.ok new) as) = some l ∧
      s.Published ∧ l = s.stack := by
    refine exists_run_emitted (R := fun s l ↦ s.Published ∧ l = s.stack) ?_
      ⟨published_new, rfl⟩ h
    rintro s a s' l ⟨hs, rfl⟩ hstep
    exact ⟨_, hs.run_calls hstep, hs.step hstep, rfl⟩
  obtain ⟨_, hrun, hs, rfl⟩ := hruns
  refine ⟨hrun, fun hpublished hquit ↦ ?_⟩
  by_contra hrunning
  have hleft := hs.left hpublished (Bool.eq_false_iff.mpr hrunning)
  rw [EventLoop.quit_of_run hrun, Bool.or_eq_true, List.any_eq_true] at hleft
  rcases hleft with hnew | ⟨b, hmem, hb⟩
  · cases hnew
  · rw [hquit b hmem] at hb
    cases hb

/-- A task is pushed before the thread has entered `loop()`, and the object is being destroyed
while it is run. -/
theorem published_runs_run :
    ∃ s : State Nat, run (liftAbort step) (.ok new) [.owner .start, .worker .construct,
        .worker .publish, .owner .started, .outside (.otherPush 1), .worker .enter,
        .worker (.inside (.own .test)), .outside .otherPushed, .owner .destroy,
        .worker (.inside (.own (.wait [.wakeup]))), .owner .test] = some (.ok s) ∧
      s.worker.isRunning = true ∧ s.stack.pendingTasks = [1] ∧ s.owner = .members := by
  have h := published_runs (T := Nat) [.owner .start, .worker .construct,
    .worker .publish, .owner .started, .outside (.otherPush 1), .worker .enter,
    .worker (.inside (.own .test)), .outside .otherPushed, .owner .destroy,
    .worker (.inside (.own (.wait [.wakeup]))), .owner .test] _ rfl
  exact ⟨_, rfl, h.2 rfl (by decide), rfl, rfl⟩

end EventLoopThread.State

end Wuduo
