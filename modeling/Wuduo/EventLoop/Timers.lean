import Wuduo.EventLoop.Discipline
import Wuduo.EventLoop.Wakeup
import Wuduo.TimerQueue.Alarm
import Wuduo.TimerQueue.Firing

/-!
# A loop and its timers

`EventLoop::run_at` can be called by any thread.  `add_timer` makes the timer there and
then, and hands the rest to `run_in_loop`: in the loop's own thread the timer goes into
`timers_` at once, and from another thread it goes there by way of the task queue.  The
timers are run by the callback of the `timerfd`'s channel, which is one of the callbacks of
a batch, and whatever a callback or a task does can ask for more timers.

So a timer passes through two machines that are described elsewhere, the task queue of an
`EventLoop` and a `TimerQueue` with its `History`; a `TimedLoop` is the two of them, joined
where the source joins them.

## Results

* `timers_accounted`: every timer that was asked for, by whichever thread, has been run
  once, is about to be run, is in the set, or is still in the task queue.
* `timers_not_slept_through`: when the loop sleeps and nobody is about to wake it, every
  timer that was asked for and not run is in the set.
-/

namespace Wuduo

open Transition
open scoped List

/-- What can be queued on a loop: the lambda of `add_timer`, or any other task. -/
inductive TimedLoop.Task where
  | addTimer (deadline : Int) (addr : Nat)
  | other
deriving DecidableEq, Repr

/-- A loop with its timer queue, and the timers it was asked for. -/
structure TimedLoop where
  loop : EventLoop TimedLoop.Task
  timers : TimerQueue.History
  /-- the timers that `add_timer` was called for -/
  asked : List TimerQueue.Entry
deriving DecidableEq

namespace TimedLoop

open TimerQueue (Entry address)

/-- The timer that a task is to add. -/
def Task.entry : Task → Option Entry
  | .addTimer deadline addr => some (toLex (deadline, addr))
  | .other => none

/-- The constructors. -/
def new (clock : Int) : TimedLoop where
  loop := EventLoop.new
  timers := TimerQueue.History.new clock
  asked := []

/-- One step, with the readings of the clock that the timer queue makes in it. -/
inductive Action where
  /-- a step of a thread that has nothing to do with the timers -/
  | loop (a : EventLoop.Action Task)
  /-- the callback of the `timerfd`'s channel, up to the first timer -/
  | handleRead (readAt now : Int)
  /-- the callback of the next timer that has expired -/
  | runNext
  /-- the callback of the `timerfd`'s channel after the last timer -/
  | endRead (now : Int)
  /-- the next of the pending tasks -/
  | runTask (now : Int)
  /-- `run_at` in the loop's own thread -/
  | runAt (deadline : Int) (addr : Nat) (now : Int)
  /-- `run_at` in another thread, up to the push of `queue_in_loop` -/
  | otherRunAt (deadline : Int) (addr : Nat)
deriving DecidableEq

/-- The steps of a loop that are taken by themselves.  Until the callback of the
`timerfd`'s channel returns, the loop's thread calls the loop and does nothing else. -/
def isFree (t : TimedLoop) : EventLoop.Action Task → Bool
  | .own .runTask | .own (.push (.addTimer _ _)) | .otherPush (.addTimer _ _) => false
  | .own (.push .other) | .own .quit => true
  | .own _ => t.timers.queue.running = none
  | .ownPushed | .otherPush .other | .otherPushed | .otherQuit | .otherQuitting => true

/-- A task is run: the lambda of `add_timer` adds its timer. -/
def exec (t : TimedLoop) (now : Int) : Task → Option TimedLoop
  | .addTimer deadline addr =>
      (t.timers.step (.addTimer deadline addr now)).map fun timers ↦ { t with timers }
  | .other => some t

/-- The transition function. -/
def step (t : TimedLoop) : Action → Option TimedLoop
  | .loop a => if t.isFree a then (t.loop.step a).map fun loop ↦ { t with loop } else none
  | .handleRead readAt now =>
      match t.loop.place with
      | .dispatch (.other :: _) =>
          (t.loop.step (.own .handleEvents)).bind fun loop ↦
            (t.timers.step (.beginRead readAt now)).map fun timers ↦ { t with loop, timers }
      | _ => none
  | .runNext =>
      if t.loop.queueing then none
      else (t.timers.step .runNext).map fun timers ↦ { t with timers }
  | .endRead now =>
      if t.loop.queueing then none
      else (t.timers.step (.endRead now)).map fun timers ↦ { t with timers }
  | .runTask now =>
      match t.loop.tasksDump with
      | task :: _ =>
          (t.loop.step (.own .runTask)).bind fun loop ↦ exec { t with loop } now task
      | [] => none
  | .runAt deadline addr now =>
      if t.loop.place.isUser ∧ t.loop.queueing = false then
        (t.timers.step (.addTimer deadline addr now)).map fun timers ↦
          { t with timers, asked := t.asked ++ [toLex (deadline, addr)] }
      else none
  | .otherRunAt deadline addr =>
      (t.loop.step (.otherPush (.addTimer deadline addr))).map fun loop ↦
        { t with loop, asked := t.asked ++ [toLex (deadline, addr)] }

/-! ## What holds between the steps -/

/-- The timers that are still in the task queue. -/
def queued (t : TimedLoop) : List Entry := t.loop.tasks.waiting.filterMap Task.entry

/-- A new timer has an address that no timer has which is queued or in the set. -/
def Fresh (t : TimedLoop) : Action → Prop
  | .runAt _ addr _ | .otherRunAt _ addr =>
      addr < TimerQueue.UINTPTR_MAX ∧
        ∀ e ∈ t.queued ++ t.timers.queue.timers.elems, address e ≠ addr
  | _ => True

instance (t : TimedLoop) : ∀ a, Decidable (t.Fresh a)
  | .runAt _ _ _ | .otherRunAt _ _ => inferInstanceAs (Decidable (_ ∧ _))
  | .loop _ | .handleRead _ _ | .runNext | .endRead _ | .runTask _ =>
      inferInstanceAs (Decidable True)

structure Inv (t : TimedLoop) : Prop where
  timers : t.timers.Inv
  /-- what was asked for was added or is to be added -/
  asked : t.asked.Perm (t.timers.added ++ t.queued)
  /-- no two timers share an address -/
  nodup : ((t.queued ++ t.timers.queue.timers.elems).map address).Nodup
  address_lt : ∀ e ∈ t.queued, address e < TimerQueue.UINTPTR_MAX

theorem inv_new (clock : Int) : (new clock).Inv where
  timers := TimerQueue.History.inv_new clock
  asked := .refl _
  nodup := List.nodup_nil
  address_lt _ h := by cases h

/-! ## Steps -/

/-- The steps, each with what the two machines do in it. -/
inductive Step (t : TimedLoop) : Action → TimedLoop → Prop where
  | loop {a : EventLoop.Action Task} {loop : EventLoop Task} (hfree : t.isFree a = true)
      (h : t.loop.step a = some loop) : Step t (.loop a) { t with loop }
  | handleRead {readAt now : Int} {active : List EventLoop.Event} {loop : EventLoop Task}
      {timers : TimerQueue.History} (hplace : t.loop.place = .dispatch (.other :: active))
      (hloop : t.loop.step (.own .handleEvents) = some loop)
      (htimers : t.timers.step (.beginRead readAt now) = some timers) :
      Step t (.handleRead readAt now) { t with loop, timers }
  | runNext {timers : TimerQueue.History} (htimers : t.timers.step .runNext = some timers) :
      Step t .runNext { t with timers }
  | endRead {now : Int} {timers : TimerQueue.History}
      (htimers : t.timers.step (.endRead now) = some timers) :
      Step t (.endRead now) { t with timers }
  | runTask {now : Int} {task : Task} {rest : List Task} {loop : EventLoop Task} {t' : TimedLoop}
      (hdump : t.loop.tasksDump = task :: rest)
      (hloop : t.loop.step (.own .runTask) = some loop)
      (hexec : exec { t with loop } now task = some t') : Step t (.runTask now) t'
  | runAt {deadline : Int} {addr : Nat} {now : Int} {timers : TimerQueue.History}
      (htimers : t.timers.step (.addTimer deadline addr now) = some timers) :
      Step t (.runAt deadline addr now)
        { t with timers, asked := t.asked ++ [toLex (deadline, addr)] }
  | otherRunAt {deadline : Int} {addr : Nat} {loop : EventLoop Task}
      (hloop : t.loop.step (.otherPush (.addTimer deadline addr)) = some loop) :
      Step t (.otherRunAt deadline addr)
        { t with loop, asked := t.asked ++ [toLex (deadline, addr)] }

section

variable {t t' : TimedLoop}

theorem step_cases {a : Action} (h : t.step a = some t') : Step t a t' := by
  cases a with
  | loop a =>
      rw [step, Option.ite_none_right_eq_some, Option.map_eq_some_iff] at h
      obtain ⟨hfree, loop, hloop, rfl⟩ := h
      exact .loop hfree hloop
  | handleRead readAt now =>
      rw [step] at h
      split at h
      · rename_i active hplace
        obtain ⟨loop, hloop, h⟩ := Option.bind_eq_some_iff.mp h
        obtain ⟨timers, htimers, rfl⟩ := Option.map_eq_some_iff.mp h
        exact .handleRead hplace hloop htimers
      · cases h
  | runNext =>
      rw [step, Option.ite_none_left_eq_some, Option.map_eq_some_iff] at h
      obtain ⟨-, timers, htimers, rfl⟩ := h
      exact .runNext htimers
  | endRead now =>
      rw [step, Option.ite_none_left_eq_some, Option.map_eq_some_iff] at h
      obtain ⟨-, timers, htimers, rfl⟩ := h
      exact .endRead htimers
  | runTask now =>
      rw [step] at h
      split at h
      · rename_i task rest hdump
        obtain ⟨loop, hloop, hexec⟩ := Option.bind_eq_some_iff.mp h
        exact .runTask hdump hloop hexec
      · cases h
  | runAt deadline addr now =>
      rw [step, Option.ite_none_right_eq_some, Option.map_eq_some_iff] at h
      obtain ⟨-, timers, htimers, rfl⟩ := h
      exact .runAt htimers
  | otherRunAt deadline addr =>
      rw [step, Option.map_eq_some_iff] at h
      obtain ⟨loop, hloop, rfl⟩ := h
      exact .otherRunAt hloop

/-- What a step of the loop does to the timers in its queue. -/
theorem queued_step {a : EventLoop.Action Task} {loop : EventLoop Task}
    (h : t.loop.step a = some loop) :
    t.queued ++ (t.loop.pushedBy a).filterMap Task.entry =
      (t.loop.ranBy a).filterMap Task.entry ++ queued { t with loop } := by
  have hwaiting := congrArg (List.filterMap Task.entry) (EventLoop.step_waiting h)
  rwa [List.filterMap_append, List.filterMap_append] at hwaiting

/-- A step of the loop that adds no timer and asks for none. -/
theorem queued_of_isFree {a : EventLoop.Action Task} {loop : EventLoop Task}
    (hfree : t.isFree a = true) (h : t.loop.step a = some loop) :
    queued { t with loop } = t.queued := by
  have hstep := queued_step h
  have hpushed : (t.loop.pushedBy a).filterMap Task.entry = [] := by
    rw [EventLoop.pushedBy.eq_def]
    split
    · rename_i task
      cases task with
      | addTimer deadline addr => cases hfree
      | other => rfl
    · rename_i task
      cases task with
      | addTimer deadline addr => cases hfree
      | other => rfl
    · rfl
  have hran : t.loop.ranBy a = [] := by
    rw [EventLoop.ranBy.eq_def]
    split
    · cases hfree
    · rfl
  rw [hpushed, hran, List.append_nil] at hstep
  exact hstep.symm

/-- The loop goes on; its timers are the same. -/
theorem Inv.of_loop (h : t.Inv) {loop : EventLoop Task}
    (hqueued : queued { t with loop } = t.queued) : Inv { t with loop } where
  timers := h.timers
  asked := by rw [hqueued]; exact h.asked
  nodup := by rw [hqueued]; exact h.nodup
  address_lt := by rw [hqueued]; exact h.address_lt

/-- A step of the timer queue that adds no timer. -/
theorem Inv.of_timers (h : t.Inv) {a : TimerQueue.Action} {timers : TimerQueue.History}
    (ha : ∀ deadline addr now, a ≠ .addTimer deadline addr now)
    (hstep : t.timers.step a = some timers) : Inv { t with timers } := by
  have hfresh : t.timers.Fresh a := by
    cases a with
    | addTimer deadline addr now => exact absurd rfl (ha deadline addr now)
    | beginRead | runNext | endRead => trivial
  have hless : timers.added = t.timers.added ∧
      timers.queue.timers.elems.Sublist t.timers.queue.timers.elems := by
    rcases TimerQueue.History.step_cases hstep with ⟨d, addr, now, rfl, -⟩ |
      ⟨readAt, now, -, -, -, htimers, hadded, -⟩ | ⟨e, rest, -, -, -, htimers, hadded, -⟩ |
      ⟨now, -, -, -, htimers, hadded, -⟩
    · exact absurd rfl (ha d addr now)
    · rw [htimers, ← t.timers.queue.getExpired_append now]
      exact ⟨hadded, List.sublist_append_right _ _⟩
    · exact ⟨hadded, htimers ▸ List.Sublist.refl _⟩
    · exact ⟨hadded, htimers ▸ List.Sublist.refl _⟩
  refine ⟨TimerQueue.History.step_inv h.timers hfresh hstep, ?_, ?_, h.address_lt⟩
  · show t.asked.Perm (timers.added ++ t.queued)
    rw [hless.1]
    exact h.asked
  · exact h.nodup.sublist ((hless.2.append_left t.queued).map address)

/-- A timer is added that was asked for and is not in the queue, or not any more. -/
theorem inv_addTimer {deadline : Int} {addr : Nat} {now : Int} {timers : TimerQueue.History}
    (htimers : t.timers.Inv)
    (hasked : t.asked.Perm (t.timers.added ++ toLex (deadline, addr) :: t.queued))
    (hnodup : (addr :: (t.queued ++ t.timers.queue.timers.elems).map address).Nodup)
    (hlt : addr < TimerQueue.UINTPTR_MAX)
    (hqueued : ∀ e ∈ t.queued, address e < TimerQueue.UINTPTR_MAX)
    (hstep : t.timers.step (.addTimer deadline addr now) = some timers) :
    Inv { t with timers } := by
  obtain ⟨hnew, hold⟩ := List.nodup_cons.mp hnodup
  have hne (e : Entry) (he : e ∈ t.timers.queue.timers.elems) : address e ≠ addr := by
    rintro rfl
    exact hnew (List.mem_map_of_mem (List.mem_append_right _ he))
  rcases TimerQueue.History.step_cases hstep with ⟨d, a, n, ha, -, htimers', hadded, -⟩ |
    ⟨_, _, ha, -⟩ | ⟨_, _, ha, -⟩ | ⟨_, ha, -⟩
  · cases ha
    have helems := OrderedSet.elems_emplace_perm (s := t.timers.queue.timers)
      (x := toLex (deadline, addr)) fun hmem ↦ hne _ hmem rfl
    have hfresh : t.timers.Fresh (.addTimer deadline addr now) := ⟨hlt, hne⟩
    refine ⟨TimerQueue.History.step_inv htimers hfresh hstep, ?_, ?_, hqueued⟩
    · show t.asked.Perm (timers.added ++ t.queued)
      rw [hadded, List.append_assoc]
      exact hasked
    · show ((t.queued ++ timers.queue.timers.elems).map address).Nodup
      rw [htimers']
      have hperm : ((t.queued ++ (t.timers.queue.timers.emplace
          (toLex (deadline, addr))).elems).map address).Perm
          (addr :: (t.queued ++ t.timers.queue.timers.elems).map address) :=
        ((helems.append_left t.queued).trans List.perm_middle).map address
      exact hperm.nodup_iff.mpr hnodup
  · cases ha
  · cases ha
  · cases ha

/-- What a new timer's address leaves distinct. -/
theorem Inv.nodup_cons (h : t.Inv) {addr : Nat}
    (hne : ∀ e ∈ t.queued ++ t.timers.queue.timers.elems, address e ≠ addr) :
    (addr :: (t.queued ++ t.timers.queue.timers.elems).map address).Nodup := by
  refine List.nodup_cons.mpr ⟨?_, h.nodup⟩
  intro hmem
  obtain ⟨e, he, haddr⟩ := List.mem_map.mp hmem
  exact hne e he haddr

/-- `run_at` in the loop's own thread. -/
theorem Inv.runAt (h : t.Inv) {deadline : Int} {addr : Nat} {now : Int}
    {timers : TimerQueue.History} (hlt : addr < TimerQueue.UINTPTR_MAX)
    (hne : ∀ e ∈ t.queued ++ t.timers.queue.timers.elems, address e ≠ addr)
    (hstep : t.timers.step (.addTimer deadline addr now) = some timers) :
    Inv { t with timers, asked := t.asked ++ [toLex (deadline, addr)] } := by
  refine inv_addTimer (t := { t with asked := t.asked ++ [toLex (deadline, addr)] }) h.timers ?_
    (h.nodup_cons hne) hlt h.address_lt hstep
  calc t.asked ++ [toLex (deadline, addr)]
    _ ~ (t.timers.added ++ t.queued) ++ [toLex (deadline, addr)] := h.asked.append_right _
    _ ~ t.timers.added ++ toLex (deadline, addr) :: t.queued := by
      rw [List.append_assoc]
      exact (List.perm_append_singleton _ _).append_left _

/-- `run_at` in another thread. -/
theorem Inv.otherRunAt (h : t.Inv) {deadline : Int} {addr : Nat} {loop : EventLoop Task}
    (hlt : addr < TimerQueue.UINTPTR_MAX)
    (hne : ∀ e ∈ t.queued ++ t.timers.queue.timers.elems, address e ≠ addr)
    (hstep : t.loop.step (.otherPush (.addTimer deadline addr)) = some loop) :
    Inv { t with loop, asked := t.asked ++ [toLex (deadline, addr)] } := by
  have hqueued : t.queued ++ [toLex (deadline, addr)] = queued { t with loop } := queued_step hstep
  refine ⟨h.timers, ?_, ?_, ?_⟩
  · show (t.asked ++ [toLex (deadline, addr)]).Perm (t.timers.added ++ queued { t with loop })
    rw [← hqueued, ← List.append_assoc]
    exact h.asked.append_right _
  · show ((queued { t with loop } ++ t.timers.queue.timers.elems).map address).Nodup
    rw [← hqueued, List.append_assoc]
    exact (List.perm_middle.map address).nodup_iff.mpr (h.nodup_cons hne)
  · show ∀ e ∈ queued { t with loop }, address e < TimerQueue.UINTPTR_MAX
    rw [← hqueued]
    intro e he
    rcases List.mem_append.mp he with he | he
    · exact h.address_lt e he
    · rw [List.mem_singleton.mp he]
      exact hlt

/-- The lambda of `add_timer` is run: its timer goes from the queue into the set. -/
theorem Inv.runTask (h : t.Inv) {task : Task} {rest : List Task} {loop : EventLoop Task}
    {now : Int} (hdump : t.loop.tasksDump = task :: rest)
    (hstep : t.loop.step (.own .runTask) = some loop)
    (hexec : exec { t with loop } now task = some t') : t'.Inv := by
  have hran : t.loop.ranBy (.own .runTask) = [task] := by
    rw [EventLoop.ranBy, hdump]
    rfl
  have hqueued := queued_step hstep
  rw [hran, show (t.loop.pushedBy (.own .runTask)).filterMap Task.entry = [] from rfl,
    List.append_nil] at hqueued
  cases task with
  | other =>
      cases hexec
      exact h.of_loop hqueued.symm
  | addTimer deadline addr =>
      have hqueued : t.queued = toLex (deadline, addr) :: queued { t with loop } := hqueued
      have hnodup := h.nodup
      have hlt := h.address_lt
      have hasked := h.asked
      rw [hqueued] at hnodup hlt hasked
      rw [exec, Option.map_eq_some_iff] at hexec
      obtain ⟨timers, htimers, rfl⟩ := hexec
      exact inv_addTimer (t := { t with loop }) h.timers hasked hnodup
        (hlt _ List.mem_cons_self) (fun e he ↦ hlt e (List.mem_cons_of_mem _ he)) htimers

/-- No step loses a timer, wherever it is. -/
theorem step_inv {a : Action} (h : t.Inv) (hfresh : t.Fresh a) (hstep : t.step a = some t') :
    t'.Inv := by
  cases step_cases hstep with
  | loop hfree hloop => exact h.of_loop (queued_of_isFree hfree hloop)
  | handleRead hplace hloop htimers =>
      have hqueued := queued_step hloop
      rw [show (t.loop.pushedBy (.own .handleEvents)).filterMap Task.entry = [] from rfl,
        List.append_nil] at hqueued
      exact (h.of_loop hqueued.symm).of_timers (fun _ _ _ ha ↦ (by cases ha)) htimers
  | runNext htimers => exact h.of_timers (fun _ _ _ ha ↦ (by cases ha)) htimers
  | endRead htimers => exact h.of_timers (fun _ _ _ ha ↦ (by cases ha)) htimers
  | runTask hdump hloop hexec => exact h.runTask hdump hloop hexec
  | runAt htimers => exact h.runAt hfresh.1 hfresh.2 htimers
  | otherRunAt hloop => exact h.otherRunAt hfresh.1 hfresh.2 hloop

end

/-! ## No timer is lost -/

/-- **Every timer is accounted for, whoever asked for it.**  In every run in which each new
timer has an address that no timer has which is queued or in the set: every timer that was
asked for, by the loop's own thread or by another, has been run once, or has been taken out
to be run next, or is in the set, or is in the task queue for the loop to add; and none was
run by a `handle_read` whose `now` was before its deadline. -/
theorem timers_accounted (clock : Int) (as : List Action) (t : TimedLoop)
    (hfresh : AllSteps step Fresh (new clock) as) (hrun : run step (new clock) as = some t) :
    t.asked.Perm (t.timers.ran.map Prod.fst ++
        (t.timers.queue.toRun ++ t.timers.queue.timers.elems) ++ t.queued) ∧
      ∀ p ∈ t.timers.ran, TimerQueue.deadline p.1 ≤ p.2 := by
  have hinv := run_invariant_of_allSteps (fun _ _ _ ↦ step_inv) (inv_new clock) hfresh hrun
  exact ⟨hinv.asked.trans (hinv.timers.accounted.append_right _), hinv.timers.ran_due⟩

/-- A timer of another thread, whose callback asks for the next one while yet another
thread asks for a third. -/
theorem timers_accounted_run :
    ∃ t, run step (new 0) [.otherRunAt 10 1, .loop (.own .loop), .loop (.own .test),
        .loop .otherPushed, .loop (.own (.wait [.wakeup])), .loop (.own .handleEvents),
        .loop (.own .swap), .runTask 2, .loop (.own .finish), .loop (.own .test),
        .loop (.own (.wait [.other])), .handleRead 10 11, .runNext, .runAt 20 2 12,
        .otherRunAt 30 3] = some t ∧
      t.asked.Perm (t.timers.ran.map Prod.fst ++
        (t.timers.queue.toRun ++ t.timers.queue.timers.elems) ++ t.queued) ∧
      t.timers.ran = [(toLex (10, 1), 11)] ∧ t.timers.queue.timers.elems = [toLex (20, 2)] ∧
      t.queued = [toLex (30, 3)] := by
  obtain ⟨t, hrun, ht⟩ := exists_run step (new 0) [.otherRunAt 10 1, .loop (.own .loop),
    .loop (.own .test), .loop .otherPushed, .loop (.own (.wait [.wakeup])),
    .loop (.own .handleEvents), .loop (.own .swap), .runTask 2, .loop (.own .finish),
    .loop (.own .test), .loop (.own (.wait [.other])), .handleRead 10 11, .runNext,
    .runAt 20 2 12, .otherRunAt 30 3]
    (fun t ↦ t.timers.ran = [(toLex (10, 1), 11)] ∧
      t.timers.queue.timers.elems = [toLex (20, 2)] ∧ t.queued = [toLex (30, 3)])
    (by decide +kernel)
  exact ⟨t, hrun, (timers_accounted 0 _ t (by decide +kernel) hrun).1, of_decide_eq_true ht⟩

/-! ## No timer is slept through -/

/-- What the loop does in a step. -/
def loopAct : Action → Option (EventLoop.Action Task)
  | .loop a => some a
  | .handleRead _ _ => some (.own .handleEvents)
  | .runTask _ => some (.own .runTask)
  | .otherRunAt deadline addr => some (.otherPush (.addTimer deadline addr))
  | .runNext | .endRead _ | .runAt _ _ _ => none

/-- What the timer queue does in a step. -/
def timersAct (t : TimedLoop) : Action → Option TimerQueue.Action
  | .handleRead readAt now => some (.beginRead readAt now)
  | .runNext => some .runNext
  | .endRead now => some (.endRead now)
  | .runAt deadline addr now => some (.addTimer deadline addr now)
  | .runTask now =>
      match t.loop.tasksDump with
      | .addTimer deadline addr :: _ => some (.addTimer deadline addr now)
      | _ => none
  | .loop _ | .otherRunAt _ _ => none

/-- The condition of `woken_of_queuesInside` on the step of the loop, and those of
`visits_armed_iff` on the step of the timer queue. -/
def Timely (t : TimedLoop) (a : Action) : Prop :=
  (∀ b ∈ loopAct a, t.loop.QueuesInside b) ∧
    ∀ b ∈ t.timersAct a,
      (t.timers.queue.NonDecreasing b ∧ b.Timestamps) ∧ t.timers.queue.Rearms b

instance (q : TimerQueue) (time : Int) : Decidable (q.ExpiresBy time) :=
  decidable_of_iff (q.alarm.any (· ≤ time) = true) <| by
    simp [TimerQueue.ExpiresBy, Option.any_eq_true]

instance (q : TimerQueue) (deadline now : Int) : Decidable (q.Covers deadline now) :=
  inferInstanceAs (Decidable (_ ∧ _ ∨ _ ∧ _ ∧ q.ExpiresBy now ∨ _ ∧ q.ExpiresBy deadline))

instance (q : TimerQueue) : ∀ a, Decidable (q.Rearms a)
  | .addTimer _ _ _ => inferInstanceAs (Decidable (_ → _ → _))
  | .beginRead _ _ | .runNext => inferInstanceAs (Decidable True)
  | .endRead now => inferInstanceAs (Decidable (∀ d ∈ q.earliest, q.Covers d now))

instance (t : TimedLoop) (a : Action) : Decidable (t.Timely a) :=
  inferInstanceAs (Decidable (_ ∧ _))

/-- Somebody sees to the task queue, the alarm to the set, and the loop is in its callbacks
while one of them runs timers. -/
structure Attended (t : TimedLoop) : Prop where
  loop : t.loop.Inv
  timestamps : t.timers.queue.Timestamps
  armed : t.timers.queue.Armed
  reading : t.timers.queue.running ≠ none → ∃ active, t.loop.place = .dispatch active

theorem attended_new (clock : Int) : (new clock).Attended where
  loop := EventLoop.inv_new
  timestamps _ h := by cases h
  armed _ _ h := by cases h
  reading h := absurd rfl h

section

variable {t t' : TimedLoop} {a : Action}

theorem step_loop (h : t.step a = some t') :
    (loopAct a).elim (t'.loop = t.loop) (t.loop.step · = some t'.loop) := by
  cases step_cases h with
  | loop _ hloop => exact hloop
  | handleRead _ hloop => exact hloop
  | @runTask now task rest loop _ hdump hloop hexec =>
      cases task with
      | other =>
          cases hexec
          exact hloop
      | addTimer deadline addr =>
          rw [exec, Option.map_eq_some_iff] at hexec
          obtain ⟨timers, -, rfl⟩ := hexec
          exact hloop
  | otherRunAt hloop => exact hloop
  | runNext | endRead | runAt => exact rfl

theorem step_timers (h : t.step a = some t') :
    (t.timersAct a).elim (t'.timers = t.timers) (t.timers.step · = some t'.timers) := by
  cases step_cases h with
  | handleRead _ _ htimers => exact htimers
  | runNext htimers => exact htimers
  | endRead htimers => exact htimers
  | runAt htimers => exact htimers
  | @runTask now task rest loop _ hdump hloop hexec =>
      rw [timersAct, hdump]
      cases task with
      | other =>
          cases hexec
          exact rfl
      | addTimer deadline addr =>
          rw [exec, Option.map_eq_some_iff] at hexec
          obtain ⟨timers, htimers, rfl⟩ := hexec
          exact htimers
  | loop | otherRunAt => exact rfl

/-- A callback that runs timers is not left. -/
theorem place_of_isFree {b : EventLoop.Action Task} {loop : EventLoop Task}
    (hfree : t.isFree b = true) (hrunning : t.timers.queue.running ≠ none)
    (h : t.loop.step b = some loop) : loop.place = t.loop.place := by
  have hbusy : decide (t.timers.queue.running = none) = false := decide_eq_false hrunning
  cases EventLoop.step_cases h with
  | own _ hstep =>
      cases hstep with
      | push | quit => rfl
      | loop | leave | stay | wait | handleEvents | swap | runTask | finish =>
          first
          | exact absurd (hbusy.symm.trans hfree) Bool.false_ne_true
          | cases hfree
  | ownWoken | ownPushed | otherPush | otherPushed | otherQuit | otherQuitting => rfl

theorem Attended.step_reading (h : t.Attended) (hstep : t.step a = some t')
    (hrunning : t'.timers.queue.running ≠ none) : ∃ active, t'.loop.place = .dispatch active := by
  cases step_cases hstep with
  | loop hfree hloop =>
      rw [place_of_isFree hfree hrunning hloop]
      exact h.reading hrunning
  | @handleRead readAt now active loop timers hplace hloop htimers =>
      refine ⟨active, ?_⟩
      cases EventLoop.step_cases hloop with
      | own _ hstep =>
          cases hstep with
          | handleEvents hplace' =>
              rw [hplace] at hplace'
              cases hplace'
              rfl
  | runNext htimers =>
      refine h.reading ?_
      rcases TimerQueue.History.step_cases htimers with ⟨_, _, _, ha, -⟩ | ⟨_, _, ha, -⟩ |
        ⟨e, rest, -, hbusy, -⟩ | ⟨_, ha, -⟩
      · cases ha
      · cases ha
      · simp [hbusy]
      · cases ha
  | endRead htimers =>
      rcases TimerQueue.History.step_cases htimers with ⟨_, _, _, ha, -⟩ | ⟨_, _, ha, -⟩ |
        ⟨_, _, ha, -⟩ | ⟨_, -, -, hidle, -⟩
      · cases ha
      · cases ha
      · cases ha
      · exact absurd hidle hrunning
  | @runTask now task rest loop _ hdump hloop hexec =>
      have hbusy : t.timers.queue.running ≠ none := by
        have htimers := step_timers hstep
        rw [timersAct, hdump] at htimers
        cases task with
        | other =>
            have hsame : t'.timers = t.timers := htimers
            rwa [← hsame]
        | addTimer deadline addr =>
            rcases TimerQueue.History.step_cases htimers with ⟨_, _, _, -, hsame, -⟩ |
              ⟨_, _, ha, -⟩ | ⟨_, _, ha, -⟩ | ⟨_, ha, -⟩
            · rwa [← hsame]
            · cases ha
            · cases ha
            · cases ha
      obtain ⟨active, hplace⟩ := h.reading hbusy
      rw [EventLoop.tasksDump, hplace] at hdump
      cases hdump
  | runAt htimers =>
      rcases TimerQueue.History.step_cases htimers with ⟨_, _, _, -, hsame, -⟩ |
        ⟨_, _, ha, -⟩ | ⟨_, _, ha, -⟩ | ⟨_, ha, -⟩
      · refine h.reading ?_
        rwa [← hsame]
      · cases ha
      · cases ha
      · cases ha
  | otherRunAt hloop =>
      obtain ⟨active, hplace⟩ := h.reading hrunning
      refine ⟨active, ?_⟩
      cases hloop
      exact hplace

/-- Every step that meets the two conditions leaves the loop and the set attended to. -/
theorem step_attended (h : t.Attended) (htimely : t.Timely a) (hstep : t.step a = some t') :
    t'.Attended := by
  have hloop : t'.loop.Inv := by
    have hloop := step_loop hstep
    cases hb : loopAct a with
    | none =>
        rw [hb] at hloop
        rw [show t'.loop = t.loop from hloop]
        exact h.loop
    | some b =>
        rw [hb] at hloop
        exact EventLoop.step_inv t.loop b t'.loop h.loop (htimely.1 b hb) hloop
  have hqueue : t'.timers.queue.Timestamps ∧ t'.timers.queue.Armed := by
    have htimers := step_timers hstep
    cases hb : t.timersAct a with
    | none =>
        rw [hb] at htimers
        rw [show t'.timers = t.timers from htimers]
        exact ⟨h.timestamps, h.armed⟩
    | some b =>
        rw [hb] at htimers
        obtain ⟨hforward, hrearms⟩ := htimely.2 b hb
        obtain ⟨queue, hqueue, hnew⟩ := Option.map_eq_some_iff.mp htimers
        have hsame : t'.timers.queue = queue := by
          rw [← hnew]
          cases b <;> rfl
        rw [hsame]
        exact ⟨TimerQueue.timestamps_step h.timestamps hforward.2 hqueue,
          (TimerQueue.armed_step_iff h.timestamps h.armed
            (restrict_eq_some.mpr ⟨hforward, hqueue⟩)).mpr hrearms⟩
  exact ⟨hloop, hqueue.1, hqueue.2, h.step_reading hstep⟩

end

/-- In a loop that sleeps, no timer is in the queue or taken out. -/
theorem Attended.asleep {t : TimedLoop} (h : t.Attended) (hplace : t.loop.place = .waiting)
    (hpushed : t.loop.pushed = 0) (hcounter : t.loop.counter = 0) :
    t.queued = [] ∧ t.timers.queue.running = none := by
  constructor
  · have hqueueing : t.loop.queueing = false := by
      rw [Bool.eq_false_iff]
      intro hq
      have huser := h.loop.user hq
      rw [hplace] at huser
      cases huser
    have hpending : t.loop.pendingTasks = [] := by
      by_contra hne
      exact h.loop.woken hplace hne hqueueing hpushed hcounter
    rw [queued, EventLoop.tasks, EventLoop.tasksDump, hplace, hpending]
    rfl
  · by_contra hrunning
    obtain ⟨active, hdispatch⟩ := h.reading hrunning
    rw [hplace] at hdispatch
    cases hdispatch

/-- **No timer is slept through.**  In every run in which each new timer has an address of
its own, the loop's own thread queues nothing outside `loop()`, the clock does not step
back, the times are `Timestamp`s, and each `reset_alarm` that ends a step of the timer queue
is asked for a deadline that it covers (`TimerQueue.Covers`): whenever the loop sleeps and no
wakeup is written or about to be, every timer that was asked for has been run or is in the
set, and the alarm of the `timerfd`, on the one clock of the model, expires by its deadline,
or by now if that is past. -/
theorem timers_not_slept_through (clock : Int) (as : List Action) (t : TimedLoop)
    (hsteps : AllSteps step (fun t a ↦ t.Fresh a ∧ t.Timely a) (new clock) as)
    (hrun : run step (new clock) as = some t) (hplace : t.loop.place = .waiting)
    (hpushed : t.loop.pushed = 0) (hcounter : t.loop.counter = 0) :
    t.asked.Perm (t.timers.ran.map Prod.fst ++ t.timers.queue.timers.elems) ∧
      ∀ e ∈ t.timers.queue.timers.elems,
        t.timers.queue.ExpiresBy (max (TimerQueue.deadline e) t.timers.queue.clock) := by
  obtain ⟨hinv, hattended⟩ : t.Inv ∧ t.Attended :=
    run_invariant_of_allSteps (I := fun t ↦ t.Inv ∧ t.Attended)
      (fun _ _ _ h hC hstep ↦ ⟨step_inv h.1 hC.1 hstep, step_attended h.2 hC.2 hstep⟩)
      ⟨inv_new clock, attended_new clock⟩ hsteps hrun
  obtain ⟨hqueued, hidle⟩ := hattended.asleep hplace hpushed hcounter
  constructor
  · have hasked := hinv.asked.trans (hinv.timers.accounted.append_right _)
    rwa [hqueued, TimerQueue.toRun, hidle, Option.getD_none, List.nil_append,
      List.append_nil] at hasked
  · intro e he
    obtain ⟨first, hfirst, hle⟩ := OrderedSet.exists_first_le he
    have hearliest : t.timers.queue.earliest = some (TimerQueue.deadline first) := by
      rw [TimerQueue.earliest, hfirst]
      rfl
    obtain ⟨expiry, halarm, hexpiry⟩ := hattended.armed hidle _ hearliest
    have hdeadline : TimerQueue.deadline first ≤ TimerQueue.deadline e :=
      Prod.Lex.monotone_fst_ofLex hle
    exact ⟨expiry, halarm, hexpiry.trans (max_le_max_right _ hdeadline)⟩

/-- The same timers as before, and the loop asleep once all of them are in the set. -/
theorem timers_not_slept_through_run :
    ∃ t, run step (new 0) [.otherRunAt 10 1, .loop (.own .loop), .loop (.own .test),
        .loop .otherPushed, .loop (.own (.wait [.wakeup])), .loop (.own .handleEvents),
        .loop (.own .swap), .runTask 2, .loop (.own .finish), .loop (.own .test),
        .otherRunAt 30 3, .loop .otherPushed, .loop (.own (.wait [.other, .wakeup])),
        .handleRead 10 11, .runNext, .runAt 20 2 12, .endRead 13, .loop (.own .handleEvents),
        .loop (.own .swap), .runTask 14, .loop (.own .finish), .loop (.own .test)] = some t ∧
      (∀ e ∈ t.timers.queue.timers.elems,
        t.timers.queue.ExpiresBy (max (TimerQueue.deadline e) t.timers.queue.clock)) ∧
      t.timers.queue.timers.elems = [toLex (20, 2), toLex (30, 3)] := by
  obtain ⟨t, hrun, ht⟩ := exists_run step (new 0) [.otherRunAt 10 1, .loop (.own .loop),
    .loop (.own .test), .loop .otherPushed, .loop (.own (.wait [.wakeup])),
    .loop (.own .handleEvents), .loop (.own .swap), .runTask 2, .loop (.own .finish),
    .loop (.own .test), .otherRunAt 30 3, .loop .otherPushed,
    .loop (.own (.wait [.other, .wakeup])), .handleRead 10 11, .runNext, .runAt 20 2 12,
    .endRead 13, .loop (.own .handleEvents), .loop (.own .swap), .runTask 14,
    .loop (.own .finish), .loop (.own .test)]
    (fun t ↦ (t.loop.place = .waiting ∧ t.loop.pushed = 0 ∧ t.loop.counter = 0) ∧
      t.timers.queue.timers.elems = [toLex (20, 2), toLex (30, 3)]) (by decide +kernel)
  obtain ⟨⟨hplace, hpushed, hcounter⟩, helems⟩ := of_decide_eq_true ht
  exact ⟨t, hrun, (timers_not_slept_through 0 _ t (by decide +kernel) hrun hplace hpushed
    hcounter).2, helems⟩

end TimedLoop

end Wuduo
