import Wuduo.Basic
import Wuduo.EventLoop

/-!
# `wuduo::EventLoopThread`

The model of `event_loop_thread.cpp`: the thread that owns such an object calls
`start()` and its destructor; the thread that `start()` creates constructs a loop on its
stack, publishes it through a promise, runs it, and takes it down again.  Meanwhile any
thread that has the published loop may call it.

The steps are those between which the threads can interleave.  What the loop does is a
step of `EventLoop`, so the call of `quit` in the destructor, which comes from another
thread than the loop's, is two steps.

`loop_` is null or points to the loop of this object's thread.  It is made null in the
constructor, and null again behind `loop()`; nothing else assigns to it.  So the
destructor never finds a loop to stop, and destroys the `std::thread` of an object that
was started as it is (`stoppedAndJoined_iff`).
-/

namespace Wuduo

/-- `thread_`: null, or a `std::thread` that is joinable or has been joined. -/
inductive EventLoopThread.Handle where
  | null
  | joinable
  | joined
deriving DecidableEq, Repr

structure EventLoopThread where
  /-- `loop_` is not null -/
  loop : Bool
  /-- `started_` -/
  started : Bool
  /-- `exiting_` -/
  exiting : Bool
  /-- `thread_` -/
  thread : EventLoopThread.Handle
deriving DecidableEq, Repr

/-- The steps of the loop's own thread within `loop()`. -/
def EventLoop.Action.isInside {T : Type*} : EventLoop.Action T → Bool
  | .own .loop => false
  | .own _ | .ownPushed => true
  | _ => false

/-- The steps of other threads. -/
def EventLoop.Action.isOutside {T : Type*} : EventLoop.Action T → Bool
  | .own _ | .ownPushed => false
  | _ => true

namespace EventLoopThread

open Transition

/-- Where the thread is that owns the object. -/
inductive Owner where
  /-- in none of the functions of the object -/
  | idle
  /-- in `start()`, before the future is ready -/
  | starting
  /-- in the destructor, before the test -/
  | destroying
  /-- before `loop_->quit()` -/
  | quitting
  /-- in `loop_->quit()`, behind the assignment -/
  | waking
  /-- before `thread_->join()` -/
  | joining
  /-- behind the body of the destructor -/
  | members
  /-- behind the destructor -/
  | gone
deriving DecidableEq, Repr

/-- The owner is behind what the body of the destructor does to the loop. -/
def Owner.hasAsked : Owner → Bool
  | .joining | .members | .gone => true
  | _ => false

/-- The owner has found a loop to stop, and is about it. -/
def Owner.isStopping : Owner → Bool
  | .quitting | .waking | .joining => true
  | _ => false

/-- The owner is about to use the loop. -/
def Owner.usesLoop : Owner → Bool
  | .quitting | .waking => true
  | _ => false

theorem Owner.isStopping_of_usesLoop {o : Owner} (h : o.usesLoop = true) : o.isStopping = true := by
  cases o with
  | quitting | waking => rfl
  | _ => cases h

/-- Where the thread is that `start()` creates. -/
inductive Worker where
  | absent
  | created
  /-- behind the construction of the loop -/
  | constructed
  /-- behind `set_value` -/
  | published
  /-- in `loop()` -/
  | looping
  /-- behind `loop()` -/
  | returned
  /-- behind the assignment to `loop_` -/
  | reset
  /-- behind the destruction of the loop -/
  | over
deriving DecidableEq, Repr

/-- The loop has been constructed and not been destroyed. -/
def Worker.hasLoop : Worker → Bool
  | .constructed | .published | .looping | .returned | .reset => true
  | .absent | .created | .over => false

/-- The promise has its value. -/
def Worker.isPublished : Worker → Bool
  | .published | .looping | .returned | .reset | .over => true
  | .absent | .created | .constructed => false

/-- The published loop has yet to leave `loop()`. -/
def Worker.isRunning : Worker → Bool
  | .published | .looping => true
  | _ => false

/-- The steps of the thread that owns the object. -/
inductive OwnerAction where
  /-- `start()`, up to the creation of the thread -/
  | start
  /-- `start()` returns -/
  | started
  /-- the destructor, up to the test -/
  | destroy
  | test
  /-- `loop_->quit()`, up to the assignment -/
  | quit
  /-- `loop_->quit()` returns -/
  | wakeup
  | join
  | destroyMembers
deriving DecidableEq, Repr

/-- The steps of the thread that `start()` creates. -/
inductive WorkerAction (T : Type*) where
  | construct
  | publish
  /-- `loop()` is entered -/
  | enter
  | inside (a : EventLoop.Action T)
  /-- `loop()` returns -/
  | leave
  /-- `loop_ = nullptr` -/
  | reset
  /-- the loop is destroyed, and the thread ends, unless the destructor does not return -/
  | exit (outcome : Option NoReturn)
deriving DecidableEq, Repr

inductive Action (T : Type*) where
  | owner (a : OwnerAction)
  | worker (a : WorkerAction T)
  /-- a step of another thread that has the published loop -/
  | outside (a : EventLoop.Action T)
deriving DecidableEq, Repr

/-- The object, the two threads, and the loop on the stack of the second. -/
structure State (T : Type*) where
  object : EventLoopThread
  owner : Owner
  worker : Worker
  stack : EventLoop T
deriving DecidableEq, Repr

namespace State

variable {T : Type*}

/-- The constructor. -/
def new : State T where
  object := { loop := false, started := false, exiting := false, thread := .null }
  owner := .idle
  worker := .absent
  stack := .new

/-- The step of the loop, if there is one. -/
def onStack (s : State T) (a : EventLoop.Action T) : Option (State T) :=
  if s.worker.hasLoop then (s.stack.step a).map fun l ↦ { s with stack := l } else none

/-- A step of the thread that owns the object. -/
def stepOwner (s : State T) : OwnerAction → Option (Except NoReturn (State T))
  | .start =>
      if s.owner = .idle then
        if s.object.started then some (.error (.assertion .started))
        else some (.ok { s with
          object := { s.object with started := true, thread := .joinable }
          worker := .created
          owner := .starting })
      else none
  | .started =>
      if s.owner = .starting ∧ s.worker.isPublished then some (.ok { s with owner := .idle })
      else none
  | .destroy =>
      if s.owner = .idle then
        some (.ok { s with object := { s.object with exiting := true }, owner := .destroying })
      else none
  | .test =>
      if s.owner = .destroying then
        -- `(loop_ != nullptr) && (thread_ != nullptr)`
        if s.object.loop ∧ s.object.thread ≠ .null then some (.ok { s with owner := .quitting })
        else some (.ok { s with owner := .members })
      else none
  | .quit =>
      if s.owner = .quitting then
        (s.onStack .otherQuit).map fun s ↦ .ok { s with owner := .waking }
      else none
  | .wakeup =>
      if s.owner = .waking then
        (s.onStack .otherQuitting).map fun s ↦ .ok { s with owner := .joining }
      else none
  | .join =>
      if s.owner = .joining ∧ s.worker = .over then
        some (.ok { s with object := { s.object with thread := .joined }, owner := .members })
      else none
  | .destroyMembers =>
      if s.owner = .members then
        if s.object.thread = .joinable then some (.error .joinable)
        else some (.ok { s with owner := .gone })
      else none

/-- A step of the thread that `start()` creates. -/
def stepWorker (s : State T) : WorkerAction T → Option (Except NoReturn (State T))
  | .construct =>
      if s.worker = .created then some (.ok { s with worker := .constructed, stack := .new })
      else none
  | .publish =>
      if s.worker = .constructed then some (.ok { s with worker := .published }) else none
  | .enter =>
      if s.worker = .published then
        (s.onStack (.own .loop)).map fun s ↦ .ok { s with worker := .looping }
      else none
  | .inside a =>
      if s.worker = .looping ∧ ¬ s.stack.place.isOutside ∧ a.isInside then (s.onStack a).map .ok
      else none
  | .leave =>
      if s.worker = .looping ∧ s.stack.place.isOutside then
        some (.ok { s with worker := .returned })
      else none
  | .reset =>
      if s.worker = .returned then
        some (.ok { s with object := { s.object with loop := false }, worker := .reset })
      else none
  | .exit outcome =>
      if s.worker = .reset then
        match outcome with
        | none => some (.ok { s with worker := .over })
        | some e => some (.error e)
      else none

/-- The transition function. -/
def step (s : State T) : Action T → Option (Except NoReturn (State T))
  | .owner a => s.stepOwner a
  | .worker a => s.stepWorker a
  | .outside a =>
      if s.worker.isPublished ∧ a.isOutside then (s.onStack a).map .ok else none

/-! ## What is asked of the destructor -/

/-- The thread is stopped and joined by the destructor. -/
structure StoppedAndJoined (s : State T) : Prop where
  /-- the published loop was asked to quit, if it still runs -/
  asked : s.owner.hasAsked = true → s.worker.isRunning = true → s.stack.quit = true
  /-- the thread is over when `thread_` has been destroyed -/
  joined : s.owner = .gone → s.worker = .absent ∨ s.worker = .over
  /-- the loop that is about to be used has not been destroyed -/
  alive : s.owner.usesLoop = true → s.worker.hasLoop = true

/-! ## What the destructor finds -/

/-- `loop_` is null, and the `std::thread` of an object that was started is joinable. -/
structure Inv (s : State T) : Prop where
  loop : s.object.loop = false
  thread : s.object.thread = if s.object.started then .joinable else .null
  absent : s.object.started = false → s.worker = .absent
  owner : s.owner.isStopping = false
  gone : s.owner = .gone → s.object.started = false

theorem inv_new : (new : State T).Inv where
  loop := rfl
  thread := rfl
  absent _ := rfl
  owner := rfl
  gone h := by cases h

theorem Inv.ne_of_isStopping {s : State T} (h : s.Inv) {o : Owner} (ho : o.isStopping = true) :
    s.owner ≠ o := by
  rintro rfl
  rw [h.owner] at ho
  cases ho

/-- A step of the owner that returns: `start()`, or one that changes neither `loop_` nor
`thread_`. -/
inductive OwnerStep (s : State T) : OwnerAction → State T → Prop where
  | start (hidle : s.owner = .idle) : OwnerStep s .start { s with
      object := { s.object with started := true, thread := .joinable }
      worker := .created
      owner := .starting }
  | goesOn {a : OwnerAction} {exiting : Bool} {o : Owner} (ha : a ≠ .start)
      (howner : s.owner ≠ .gone) (ho : o.isStopping = false)
      (hgone : o = .gone → s.object.thread ≠ .joinable) :
      OwnerStep s a { s with object := { s.object with exiting }, owner := o }

/-- The owner does not find a loop to stop. -/
theorem ownerStep_of_stepOwner {s s' : State T} {a : OwnerAction} (h : s.Inv)
    (hstep : s.stepOwner a = some (.ok s')) : OwnerStep s a s' := by
  have ne_gone {o : Owner} (howner : s.owner = o) (ho : o ≠ .gone) : s.owner ≠ .gone := by
    rwa [howner]
  cases a with
  | start =>
      rw [stepOwner, Option.ite_none_right_eq_some] at hstep
      obtain ⟨hidle, hstep⟩ := hstep
      split at hstep
      · cases hstep
      · cases hstep
        exact .start hidle
  | started =>
      rw [stepOwner, Option.ite_none_right_eq_some] at hstep
      obtain ⟨⟨hstarting, -⟩, hstep⟩ := hstep
      cases hstep
      exact .goesOn (by decide) (ne_gone hstarting (by decide)) rfl fun hg ↦ (by cases hg)
  | destroy =>
      rw [stepOwner, Option.ite_none_right_eq_some] at hstep
      obtain ⟨hidle, hstep⟩ := hstep
      cases hstep
      exact .goesOn (by decide) (ne_gone hidle (by decide)) rfl fun hg ↦ (by cases hg)
  | test =>
      rw [stepOwner, Option.ite_none_right_eq_some] at hstep
      obtain ⟨hdestroying, hstep⟩ := hstep
      rw [if_neg (by simp [h.loop])] at hstep
      cases hstep
      exact .goesOn (by decide) (ne_gone hdestroying (by decide)) rfl fun hg ↦ (by cases hg)
  | quit =>
      rw [stepOwner, if_neg (h.ne_of_isStopping rfl)] at hstep
      cases hstep
  | wakeup =>
      rw [stepOwner, if_neg (h.ne_of_isStopping rfl)] at hstep
      cases hstep
  | join =>
      rw [stepOwner, if_neg (fun hj ↦ h.ne_of_isStopping rfl hj.1)] at hstep
      cases hstep
  | destroyMembers =>
      rw [stepOwner, Option.ite_none_right_eq_some] at hstep
      obtain ⟨hmembers, hstep⟩ := hstep
      split at hstep
      · cases hstep
      · rename_i hjoinable
        cases hstep
        exact .goesOn (by decide) (ne_gone hmembers (by decide)) rfl fun _ ↦ hjoinable

theorem Inv.ownerStep {s s' : State T} {a : OwnerAction} (h : s.Inv) (hstep : OwnerStep s a s') :
    s'.Inv := by
  cases hstep with
  | start => exact ⟨h.loop, rfl, fun hs ↦ (by cases hs), rfl, fun hg ↦ (by cases hg)⟩
  | goesOn _ _ ho hgone =>
      refine ⟨h.loop, h.thread, h.absent, ho, fun hg ↦ ?_⟩
      have hjoinable := hgone hg
      rw [h.thread] at hjoinable
      cases hs : s.object.started with
      | false => rfl
      | true => exact absurd (by rw [hs]; rfl) hjoinable

/-- What a step beside the owner leaves of the object. -/
structure Beside (s s' : State T) : Prop where
  owner : s'.owner = s.owner
  started : s'.object.started = s.object.started
  thread : s'.object.thread = s.object.thread
  loop : s.object.loop = false → s'.object.loop = false

theorem onStack_beside {s s' : State T} {a : EventLoop.Action T} (h : s.onStack a = some s') :
    s.worker ≠ .absent ∧ s.Beside s' := by
  rw [onStack, Option.ite_none_right_eq_some] at h
  obtain ⟨hloop, h⟩ := h
  obtain ⟨l, -, rfl⟩ := Option.map_eq_some_iff.mp h
  refine ⟨fun habsent ↦ ?_, rfl, rfl, rfl, id⟩
  rw [habsent] at hloop
  cases hloop

theorem stepWorker_beside {s : State T} {a : WorkerAction T} {r : Except NoReturn (State T)}
    (h : s.stepWorker a = some r) :
    s.worker ≠ .absent ∧ ∀ s', r = .ok s' → s.Beside s' := by
  -- a step that returns, from a place the thread is at
  have of_ok {w : Worker} {t : State T} (hworker : s.worker = w) (hw : w ≠ .absent)
      (ht : s.Beside t) :
      s.worker ≠ .absent ∧ ∀ s', (.ok t : Except NoReturn (State T)) = .ok s' → s.Beside s' := by
    refine ⟨by rwa [hworker], ?_⟩
    rintro s' ⟨⟩
    exact ht
  cases a with
  | construct | publish =>
      rw [stepWorker, Option.ite_none_right_eq_some] at h
      obtain ⟨hworker, h⟩ := h
      cases h
      exact of_ok hworker (by decide) ⟨rfl, rfl, rfl, id⟩
  | enter =>
      rw [stepWorker, Option.ite_none_right_eq_some] at h
      obtain ⟨hworker, h⟩ := h
      obtain ⟨s₁, h₁, rfl⟩ := Option.map_eq_some_iff.mp h
      obtain ⟨-, howner, hstarted, hthread, hloop⟩ := onStack_beside h₁
      exact of_ok hworker (by decide) ⟨howner, hstarted, hthread, hloop⟩
  | inside a =>
      rw [stepWorker, Option.ite_none_right_eq_some] at h
      obtain ⟨⟨hworker, -⟩, h⟩ := h
      obtain ⟨s₁, h₁, rfl⟩ := Option.map_eq_some_iff.mp h
      exact of_ok hworker (by decide) (onStack_beside h₁).2
  | leave =>
      rw [stepWorker, Option.ite_none_right_eq_some] at h
      obtain ⟨⟨hworker, -⟩, h⟩ := h
      cases h
      exact of_ok hworker (by decide) ⟨rfl, rfl, rfl, id⟩
  | reset =>
      rw [stepWorker, Option.ite_none_right_eq_some] at h
      obtain ⟨hworker, h⟩ := h
      cases h
      exact of_ok hworker (by decide) ⟨rfl, rfl, rfl, fun _ ↦ rfl⟩
  | exit outcome =>
      cases outcome with
      | none =>
          rw [stepWorker, Option.ite_none_right_eq_some] at h
          obtain ⟨hworker, h⟩ := h
          cases h
          exact of_ok hworker (by decide) ⟨rfl, rfl, rfl, id⟩
      | some e =>
          rw [stepWorker, Option.ite_none_right_eq_some] at h
          obtain ⟨hworker, h⟩ := h
          cases h
          refine ⟨by rw [hworker]; decide, ?_⟩
          rintro s' ⟨⟩

/-- A step is one of the owner, or goes on beside it, where there is another thread. -/
theorem step_cases {s : State T} {a : Action T} {r : Except NoReturn (State T)}
    (h : s.step a = some r) :
    (∃ b, a = .owner b ∧ s.stepOwner b = some r) ∨
      a ≠ .owner .start ∧ s.worker ≠ .absent ∧ ∀ s', r = .ok s' → s.Beside s' := by
  cases a with
  | owner b => exact .inl ⟨b, rfl, h⟩
  | worker b => exact .inr ⟨fun heq ↦ (by cases heq), stepWorker_beside h⟩
  | outside b =>
      rw [step, Option.ite_none_right_eq_some] at h
      obtain ⟨s', hstack, rfl⟩ := Option.map_eq_some_iff.mp h.2
      obtain ⟨hworker, hbeside⟩ := onStack_beside hstack
      exact .inr ⟨fun heq ↦ (by cases heq), hworker, fun s' hs' ↦ by cases hs'; exact hbeside⟩

/-- There is a thread only if the object was started. -/
theorem Inv.started {s : State T} (h : s.Inv) (hworker : s.worker ≠ .absent) :
    s.object.started = true := by
  cases hs : s.object.started with
  | true => rfl
  | false => exact absurd (h.absent hs) hworker

theorem Inv.beside {s s' : State T} (h : s.Inv) (hworker : s.worker ≠ .absent)
    (hbeside : s.Beside s') : s'.Inv where
  loop := hbeside.loop h.loop
  thread := by rw [hbeside.thread, hbeside.started, h.thread]
  absent hs := by
    rw [hbeside.started, h.started hworker] at hs
    cases hs
  owner := by rw [hbeside.owner, h.owner]
  gone hg := by rw [hbeside.started, h.gone (hbeside.owner ▸ hg)]

theorem step_inv (s : State T) (a : Action T) (s' : State T) (h : s.Inv)
    (hstep : s.step a = some (.ok s')) : s'.Inv := by
  rcases step_cases hstep with ⟨b, -, howner⟩ | ⟨-, hworker, hbeside⟩
  · exact h.ownerStep (ownerStep_of_stepOwner h howner)
  · exact h.beside hworker (hbeside s' rfl)

/-- Only `start()` makes an object one that was started. -/
theorem started_of_step {s s' : State T} {a : Action T} (h : s.Inv)
    (hstep : s.step a = some (.ok s')) :
    s'.object.started = true ↔ s.object.started = true ∨ a = .owner .start := by
  rcases step_cases hstep with ⟨b, rfl, howner⟩ | ⟨ha, -, hbeside⟩
  · cases ownerStep_of_stepOwner h howner with
    | start => exact iff_of_true rfl (.inr rfl)
    | goesOn hb => exact (or_iff_left fun heq ↦ hb (Action.owner.inj heq)).symm
  · rw [(hbeside s' rfl).started]
    exact (or_iff_left ha).symm

/-- Nothing is called on an object that is gone. -/
theorem gone_of_step {s : State T} {a : Action T} {r : Except NoReturn (State T)} (h : s.Inv)
    (hgone : s.owner = .gone) (hstep : s.step a = some r) :
    a ≠ .owner .start ∧ ∀ s', r = .ok s' → s'.owner = .gone := by
  rcases step_cases hstep with ⟨b, rfl, howner⟩ | ⟨ha, -, hbeside⟩
  · constructor
    · intro heq
      cases heq
      rw [stepOwner, if_neg (by rw [hgone]; decide)] at howner
      cases howner
    · rintro s' rfl
      cases ownerStep_of_stepOwner h howner with
      | start hidle => cases hgone.symm.trans hidle
      | goesOn _ hne => exact absurd hgone hne
  · exact ⟨ha, fun s' hs' ↦ (hbeside s' hs').owner.trans hgone⟩

/-! ## Runs -/

theorem inv_of_run {s s' : State T} {as : List (Action T)} (h : s.Inv)
    (hrun : run (liftAbort step) (.ok s) as = some (.ok s')) : s'.Inv :=
  run_ok_invariant step_inv h hrun

/-- An object was started if `start()` was called on it. -/
theorem started_of_run {s s' : State T} {as : List (Action T)} (h : s.Inv)
    (hrun : run (liftAbort step) (.ok s) as = some (.ok s')) :
    s'.object.started = true ↔ s.object.started = true ∨ .owner .start ∈ as := by
  induction as generalizing s with
  | nil =>
      cases hrun
      simp
  | cons a as ih =>
      obtain ⟨r, hstep, hrest⟩ := run_ok_cons_eq_some.mp hrun
      cases r with
      | error e => exact absurd hrest run_error_ne
      | ok t =>
          rw [ih (step_inv s a t h hstep) hrest, started_of_step h hstep, List.mem_cons, or_assoc,
            eq_comm (a := a)]

theorem start_notMem {s : State T} {as : List (Action T)} {r : Except NoReturn (State T)}
    (h : s.Inv) (hgone : s.owner = .gone) (hrun : run (liftAbort step) (.ok s) as = some r) :
    .owner .start ∉ as := by
  induction as generalizing s with
  | nil => exact List.not_mem_nil
  | cons a as ih =>
      obtain ⟨r', hstep, hrest⟩ := run_ok_cons_eq_some.mp hrun
      obtain ⟨hne, hgone'⟩ := gone_of_step h hgone hstep
      rw [List.mem_cons, not_or]
      refine ⟨Ne.symm hne, ?_⟩
      cases r' with
      | error e =>
          rw [(run_error_eq_some.mp hrest).1]
          exact List.not_mem_nil
      | ok t => exact ih (step_inv s a t h hstep) (hgone' t rfl) hrest

/-- **The end of an object that was started.**  Whatever the threads do meanwhile, the
destruction of `thread_` ends the process. -/
theorem terminates {as : List (Action T)} {r : Except NoReturn (State T)}
    (h : run (liftAbort step) (.ok new) as = some r) (hdestroy : .owner .destroyMembers ∈ as)
    (hstart : .owner .start ∈ as) : r = .error .joinable := by
  obtain ⟨before, after, rfl⟩ := List.append_of_mem hdestroy
  obtain ⟨r₁, h₁, hrest⟩ := run_append_eq_some.mp h
  cases r₁ with
  | error e => cases hrest
  | ok s₁ =>
      have hinv := inv_of_run inv_new h₁
      obtain ⟨r₂, hstep, hafter⟩ := run_ok_cons_eq_some.mp hrest
      have hmembers := hstep
      rw [step, stepOwner, Option.ite_none_right_eq_some] at hmembers
      obtain ⟨-, hmembers⟩ := hmembers
      cases hs : s₁.object.started with
      | true =>
          rw [if_pos (by rw [hinv.thread, hs]; rfl)] at hmembers
          cases hmembers
          exact (run_error_eq_some.mp hafter).2
      | false =>
          -- `start()` was called neither before nor after
          rw [if_neg (by rw [hinv.thread, hs]; decide)] at hmembers
          cases hmembers
          have hnot : .owner .start ∉ before := fun hmem ↦ by
            rw [(started_of_run inv_new h₁).mpr (.inr hmem)] at hs
            cases hs
          have hnot' := start_notMem (step_inv _ _ _ hinv hstep) rfl hafter
          rcases List.mem_append.mp hstart with hmem | hmem
          · exact absurd hmem hnot
          · rcases List.mem_cons.mp hmem with heq | hmem
            · cases heq
            · exact absurd hmem hnot'

/-- Where there is no thread, nothing is missed. -/
theorem Inv.stoppedAndJoined {s : State T} (h : s.Inv) (hs : s.object.started = false) :
    s.StoppedAndJoined where
  asked _ hrunning := by
    rw [h.absent hs] at hrunning
    cases hrunning
  joined _ := .inl (h.absent hs)
  alive huses := by
    cases h.owner.symm.trans (Owner.isStopping_of_usesLoop huses)

/-- The steps of the owner that can end the process. -/
theorem stepOwner_error {s : State T} {a : OwnerAction} {e : NoReturn}
    (h : s.stepOwner a = some (.error e)) : a = .start ∨ s.object.thread = .joinable := by
  cases a with
  | start => exact .inl rfl
  | destroyMembers =>
      rw [stepOwner, Option.ite_none_right_eq_some] at h
      obtain ⟨-, h⟩ := h
      split at h
      · rename_i hjoinable
        exact .inr hjoinable
      · cases h
  | quit | wakeup =>
      rw [stepOwner, Option.ite_none_right_eq_some] at h
      obtain ⟨t, -, ht⟩ := Option.map_eq_some_iff.mp h.2
      cases ht
  | test =>
      rw [stepOwner, Option.ite_none_right_eq_some] at h
      obtain ⟨-, h⟩ := h
      split at h <;> cases h
  | started | destroy | join =>
      rw [stepOwner, Option.ite_none_right_eq_some] at h
      cases h.2

/-- A step other than `start()` on an object that was not started returns. -/
theorem step_of_not_started {s : State T} {a : Action T} {r : Except NoReturn (State T)}
    (h : s.Inv) (hs : s.object.started = false) (ha : a ≠ .owner .start)
    (hstep : s.step a = some r) : ∃ s', r = .ok s' ∧ s'.Inv ∧ s'.object.started = false := by
  cases r with
  | ok s' =>
      refine ⟨s', rfl, step_inv s a s' h hstep, ?_⟩
      rw [← Bool.not_eq_true, started_of_step h hstep, hs]
      simp [ha]
  | error e =>
      rcases step_cases hstep with ⟨b, rfl, howner⟩ | ⟨-, hworker, -⟩
      · rcases stepOwner_error howner with rfl | hjoinable
        · exact absurd rfl ha
        · rw [h.thread, hs] at hjoinable
          cases hjoinable
      · exact absurd (h.absent hs) hworker

/-- **When the thread is stopped and joined.**  In a run in which the object is destroyed, the
process goes on and all that is asked of the destructor holds in every state if and only if
`start()` was never called; if it was, the process ends at the destruction of `thread_`. -/
theorem stoppedAndJoined_iff (as : List (Action T)) (r : Except NoReturn (State T))
    (h : run (liftAbort step) (.ok new) as = some r) (hdestroy : .owner .destroyMembers ∈ as) :
    (Visits (liftAbort step) (Alive StoppedAndJoined) (.ok new) as ↔ .owner .start ∉ as) ∧
      (.owner .start ∈ as → r = .error .joinable) := by
  refine ⟨⟨fun hvisits hstart ↦ ?_, fun hstart ↦ ?_⟩, terminates h hdestroy⟩
  · have halive := hvisits.last h
    rw [terminates h hdestroy hstart] at halive
    exact halive
  · have hne : ∀ a ∈ as, a ≠ .owner .start := fun a ha heq ↦ hstart (heq ▸ ha)
    refine visits_of_invariant (C := fun _ a ↦ a ≠ .owner .start)
      (I := Alive fun s ↦ s.Inv ∧ s.object.started = false) ?_ ?_ ⟨inv_new, rfl⟩
      (allSteps_of_mem hne)
    · rintro (e | s) hs
      · exact hs.elim
      · exact hs.1.stoppedAndJoined hs.2
    · rintro (e | s) a r' hs ha hstep
      · exact hs.elim
      · obtain ⟨s', rfl, hs'⟩ := step_of_not_started hs.1 hs.2 ha hstep
        exact hs'

/-- An object that is never started. -/
theorem stoppedAndJoined_iff_run :
    ∃ r, run (liftAbort step) (.ok (new : State Nat)) [.owner .destroy, .owner .test,
        .owner .destroyMembers] = some r ∧
      Visits (liftAbort step) (Alive StoppedAndJoined) (.ok (new : State Nat)) [.owner .destroy,
        .owner .test, .owner .destroyMembers] :=
  ⟨_, rfl, (stoppedAndJoined_iff [.owner .destroy, .owner .test, .owner .destroyMembers] _ rfl
    (by decide)).1.mpr (by decide)⟩

/-- An object that is started, and destroyed while its loop waits. -/
theorem not_stoppedAndJoined :
    run (liftAbort step) (.ok (new : State Nat)) [.owner .start, .worker .construct,
        .worker .publish, .owner .started, .worker .enter, .worker (.inside (.own .test)),
        .owner .destroy, .owner .test, .owner .destroyMembers] = some (.error .joinable) ∧
      ¬ Visits (liftAbort step) (Alive StoppedAndJoined) (.ok (new : State Nat)) [.owner .start,
        .worker .construct, .worker .publish, .owner .started, .worker .enter,
        .worker (.inside (.own .test)), .owner .destroy, .owner .test,
        .owner .destroyMembers] :=
  ⟨rfl, fun h ↦ h.last rfl⟩

end State

end EventLoopThread

end Wuduo
