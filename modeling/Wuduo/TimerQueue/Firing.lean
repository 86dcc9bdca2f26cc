import Wuduo.TimerQueue

/-!
# Which timers are run

A `History` is a timer queue together with the timers that were added to it and
those that were run, each with the reading of the clock that its `handle_read` went
by.  A timer is known by its deadline and its address, and an address can be used
again once its timer is gone, so both are lists in which an entry can occur more
than once.

The callback of a timer can add timers.  They go into the set from which the batch
that is being run was taken out before, and so are left to a later `handle_read`.

## Results

* `fires_once`: every timer that was added has been run once, is about to be run, or
  is still in the set; none is run early; and a `handle_read` runs the timers that
  were due when it took them out, in the order of their deadlines.
-/

namespace Wuduo.TimerQueue

open Transition

/-- The deadline of an entry. -/
def deadline (e : Entry) : Int := (ofLex e).1

/-- The address of its timer. -/
def address (e : Entry) : Nat := (ofLex e).2

/-- A queue with the timers added to it and those that were run. -/
structure History where
  queue : TimerQueue
  added : List Entry
  /-- the timers run, with the `now` of their `handle_read` -/
  ran : List (Entry × Int)
  /-- the `now` of the last `handle_read` -/
  now : Int
deriving DecidableEq

/-- The timers the queue has and that are due. -/
def due (q : TimerQueue) (now : Int) : List Entry := q.timers.elems.filter (deadline · ≤ now)

/-- The timers taken out that are still to be run. -/
def toRun (q : TimerQueue) : List Entry := q.running.getD []

namespace History

/-- A queue to which nothing has happened. -/
def new (clock : Int) : History where
  queue := TimerQueue.new clock
  added := []
  ran := []
  now := clock

/-- The transition function. -/
def step (h : History) (a : Action) : Option History :=
  (h.queue.step a).map fun queue ↦
    match a with
    | .addTimer deadline addr _ => { h with queue, added := h.added ++ [toLex (deadline, addr)] }
    | .beginRead _ now => { h with queue, now }
    | .runNext => { h with queue, ran := h.ran ++ (h.queue.toRun.take 1).map (·, h.now) }
    | .endRead _ => { h with queue }

/-- A timer that is added has an address of its own. -/
def Fresh (h : History) : Action → Prop
  | .addTimer _ addr _ => addr < UINTPTR_MAX ∧ ∀ e ∈ h.queue.timers.elems, address e ≠ addr
  | .beginRead _ _ | .runNext | .endRead _ => True

instance : ∀ (h : History) (a : Action), Decidable (h.Fresh a)
  | _, .addTimer _ _ _ => inferInstanceAs (Decidable (_ ∧ _))
  | _, .beginRead _ _ | _, .runNext | _, .endRead _ => inferInstanceAs (Decidable True)

/-! ## What holds between the steps -/

structure Inv (h : History) : Prop where
  /-- every timer is accounted for, -/
  accounted : h.added.Perm (h.ran.map Prod.fst ++ (h.queue.toRun ++ h.queue.timers.elems))
  address_lt : ∀ e ∈ h.queue.timers.elems, address e < UINTPTR_MAX
  /-- none was run early, -/
  ran_due : ∀ p ∈ h.ran, deadline p.1 ≤ p.2
  /-- and none will be -/
  toRun_due : ∀ e ∈ h.queue.toRun, deadline e ≤ h.now

theorem inv_new (clock : Int) : (new clock).Inv where
  accounted := .refl _
  address_lt _ h := by cases h
  ran_due _ h := by cases h
  toRun_due _ h := by cases h

end History

/-- What comes before the sentinel is due, and the other way round. -/
theorem lt_sentinel_iff {e : Entry} (h : address e < UINTPTR_MAX) (now : Int) :
    e < toLex (now, UINTPTR_MAX) ↔ deadline e ≤ now := by
  rw [Prod.Lex.lt_iff]
  constructor
  · rintro (hlt | ⟨heq, -⟩)
    · exact Int.le_of_lt hlt
    · exact Int.le_of_eq heq
  · intro hle
    rcases Int.lt_or_eq_of_le hle with hlt | heq
    · exact .inl hlt
    · exact .inr ⟨heq, h⟩

/-- `get_expired` takes out the timers that are due. -/
theorem getExpired_eq {q : TimerQueue} (h : ∀ e ∈ q.timers.elems, address e < UINTPTR_MAX)
    (now : Int) : (q.getExpired now).1 = q.due now := by
  rw [getExpired, OrderedSet.before_eq_filter, due]
  exact List.filter_congr fun e he ↦ decide_eq_decide.mpr (lt_sentinel_iff (h e he) now)

/-- What is not taken out stays. -/
@[simp] theorem getExpired_append (q : TimerQueue) (now : Int) :
    (q.getExpired now).1 ++ (q.getExpired now).2.timers.elems = q.timers.elems :=
  OrderedSet.before_append_eraseBefore _ _

/-- The timers that are due come in the order of their deadlines, each once. -/
theorem pairwise_due (q : TimerQueue) (now : Int) :
    (q.due now).Pairwise (deadline · ≤ deadline ·) ∧ (q.due now).Nodup := by
  have hsorted : (q.due now).Pairwise (· < ·) := q.timers.sorted.sublist List.filter_sublist
  exact ⟨hsorted.imp fun hlt ↦ Prod.Lex.monotone_fst_ofLex hlt.le, hsorted.imp ne_of_lt⟩

/-! ## Steps -/

namespace History

/-- What each kind of step does. -/
theorem step_cases {h h' : History} {a : Action} (hstep : h.step a = some h') :
    (∃ d addr now, a = .addTimer d addr now ∧ h'.queue.running = h.queue.running ∧
        h'.queue.timers = h.queue.timers.emplace (toLex (d, addr)) ∧
        h'.added = h.added ++ [toLex (d, addr)] ∧ h'.ran = h.ran ∧ h'.now = h.now) ∨
      (∃ readAt now, a = .beginRead readAt now ∧ h.queue.running = none ∧
        h'.queue.running = some (h.queue.getExpired now).1 ∧
        h'.queue.timers = (h.queue.getExpired now).2.timers ∧
        h'.added = h.added ∧ h'.ran = h.ran ∧ h'.now = now) ∨
      (∃ e rest, a = .runNext ∧ h.queue.running = some (e :: rest) ∧
        h'.queue.running = some rest ∧ h'.queue.timers = h.queue.timers ∧
        h'.added = h.added ∧ h'.ran = h.ran ++ [(e, h.now)] ∧ h'.now = h.now) ∨
      ∃ now, a = .endRead now ∧ h.queue.running = some [] ∧ h'.queue.running = none ∧
        h'.queue.timers = h.queue.timers ∧ h'.added = h.added ∧ h'.ran = h.ran ∧
        h'.now = h.now := by
  rw [step, Option.map_eq_some_iff] at hstep
  obtain ⟨q', hq, rfl⟩ := hstep
  cases a with
  | addTimer d addr now =>
      cases hq
      exact .inl ⟨d, addr, now, rfl, addTimer_running _ d addr now, addTimer_timers _ d addr now,
        rfl, rfl, rfl⟩
  | beginRead readAt now =>
      rw [TimerQueue.step] at hq
      split at hq
      · rename_i hrunning
        cases hq
        exact .inr (.inl ⟨readAt, now, rfl, hrunning, rfl, rfl, rfl, rfl, rfl⟩)
      · cases hq
  | runNext =>
      rw [TimerQueue.step] at hq
      split at hq
      · rename_i e rest hrunning
        cases hq
        refine .inr (.inr (.inl ⟨e, rest, rfl, hrunning, rfl, rfl, rfl, ?_, rfl⟩))
        simp [toRun, hrunning]
      · cases hq
  | endRead now =>
      rw [TimerQueue.step] at hq
      split at hq
      · rename_i hrunning
        cases hq
        exact .inr (.inr (.inr ⟨now, rfl, hrunning, rfl, h.queue.endRead_timers now, rfl, rfl,
          rfl⟩))
      · cases hq

/-- No step loses a timer or runs one early. -/
theorem step_inv {h h' : History} {a : Action} (hinv : h.Inv) (hfresh : h.Fresh a)
    (hstep : h.step a = some h') : h'.Inv := by
  rcases step_cases hstep with
    ⟨d, addr, now, rfl, hrunning, htimers, hadded, hran, hnow⟩ |
      ⟨readAt, now, rfl, hidle, hrunning, htimers, hadded, hran, hnow⟩ |
      ⟨e, rest, rfl, hbusy, hrunning, htimers, hadded, hran, hnow⟩ |
      ⟨now, rfl, hbusy, hrunning, htimers, hadded, hran, hnow⟩
  · obtain ⟨hlt, hne⟩ := hfresh
    have hnot : toLex (d, addr) ∉ h.queue.timers.elems := fun hmem ↦ hne _ hmem rfl
    have htoRun : h'.queue.toRun = h.queue.toRun := by rw [toRun, toRun, hrunning]
    refine ⟨?_, ?_, by rw [hran]; exact hinv.ran_due, by rw [htoRun, hnow]; exact hinv.toRun_due⟩
    · rw [hadded, hran, htoRun, htimers, ← List.append_assoc]
      have hinsert := OrderedSet.elems_emplace_perm hnot
      refine (hinv.accounted.append_right _).trans ?_
      rw [← List.append_assoc, List.append_assoc]
      exact ((List.perm_append_singleton _ _).trans hinsert.symm).append_left _
    · rw [htimers]
      intro e he
      rcases OrderedSet.mem_emplace.mp he with rfl | he
      · exact hlt
      · exact hinv.address_lt e he
  · have htoRun : h'.queue.toRun = h.queue.due now := by
      rw [toRun, hrunning, Option.getD_some, getExpired_eq hinv.address_lt]
    have hsplit := h.queue.getExpired_append now
    have hmem : ∀ e ∈ h'.queue.timers.elems, e ∈ h.queue.timers.elems := by
      rw [htimers, ← hsplit]
      exact fun e ↦ List.mem_append_right _
    refine ⟨?_, fun e he ↦ hinv.address_lt e (hmem e he), by rw [hran]; exact hinv.ran_due, ?_⟩
    · have haccounted := hinv.accounted
      rw [toRun, hidle, Option.getD_none, List.nil_append, ← hsplit] at haccounted
      rw [hadded, hran, toRun, hrunning, htimers]
      exact haccounted
    · rw [htoRun, hnow]
      exact fun e he ↦ of_decide_eq_true (List.mem_filter.mp he).2
  · have htoRun : h.queue.toRun = e :: rest := by rw [toRun, hbusy, Option.getD_some]
    have htoRun' : h'.queue.toRun = rest := by rw [toRun, hrunning, Option.getD_some]
    have hdue := hinv.toRun_due
    rw [htoRun] at hdue
    obtain ⟨he, hrest⟩ := List.forall_mem_cons.mp hdue
    refine ⟨?_, by rw [htimers]; exact hinv.address_lt, ?_, by rw [htoRun', hnow]; exact hrest⟩
    · have haccounted := hinv.accounted
      rw [htoRun] at haccounted
      rw [hadded, hran, htoRun', htimers, List.map_append, List.append_assoc]
      exact haccounted
    · rw [hran]
      intro p hp
      rcases List.mem_append.mp hp with hp | hp
      · exact hinv.ran_due p hp
      · rw [List.mem_singleton.mp hp]
        exact he
  · have htoRun : h'.queue.toRun = h.queue.toRun := by rw [toRun, toRun, hbusy, hrunning]; rfl
    refine ⟨?_, by rw [htimers]; exact hinv.address_lt, by rw [hran]; exact hinv.ran_due,
      by rw [htoRun, hnow]; exact hinv.toRun_due⟩
    rw [hadded, hran, htoRun, htimers]
    exact hinv.accounted

/-! ## One `handle_read` -/

/-- A `handle_read` that started in `h₀` at `now`: what it has run and what it will
run are the timers that were due. -/
def Batch (h₀ : History) (now : Int) (h : History) : Prop :=
  h.now = now ∧ ∃ done rest, h.queue.running = some rest ∧ h₀.queue.due now = done ++ rest ∧
    h.ran = h₀.ran ++ done.map (·, now)

theorem batch_beginRead {h h' : History} {readAt now : Int} (hinv : h.Inv)
    (hstep : h.step (.beginRead readAt now) = some h') : Batch h now h' := by
  rcases step_cases hstep with
    ⟨_, _, _, ha, -⟩ | ⟨readAt', now', ha, -, hrunning, -, -, hran, hnow⟩ |
    ⟨_, _, ha, -⟩ | ⟨_, ha, -⟩
  · cases ha
  · cases ha
    refine ⟨hnow, [], _, hrunning, (getExpired_eq hinv.address_lt now).symm, ?_⟩
    rw [hran, List.map_nil, List.append_nil]
  · cases ha
  · cases ha

/-- Callbacks and the timers they add do not change the batch. -/
theorem Batch.step {h₀ h h' : History} {now : Int} {a : Action} (hbatch : Batch h₀ now h)
    (ha : ∀ later, a ≠ .endRead later) (hstep : h.step a = some h') : Batch h₀ now h' := by
  obtain ⟨hnow, done, rest, hrest, hdue, hran⟩ := hbatch
  rcases step_cases hstep with ⟨d, addr, _, rfl, hrunning, -, -, hran', hnow'⟩ |
    ⟨_, _, rfl, hidle, -⟩ | ⟨e, rest', rfl, hbusy, hrunning, -, -, hran', hnow'⟩ | ⟨_, rfl, -⟩
  · exact ⟨hnow'.trans hnow, done, rest, hrunning.trans hrest, hdue, hran'.trans hran⟩
  · rw [hrest] at hidle
    cases hidle
  · rw [hrest] at hbusy
    cases hbusy
    refine ⟨hnow'.trans hnow, done ++ [e], rest', hrunning, by simp [hdue], ?_⟩
    rw [hran', hran, hnow]
    simp
  · exact absurd rfl (ha _)

theorem Batch.run {h₀ h h' : History} {now : Int} {as : List Action} (hbatch : Batch h₀ now h)
    (has : ∀ later, .endRead later ∉ as) (hrun : run History.step h as = some h') :
    Batch h₀ now h' := by
  induction as generalizing h with
  | nil => exact Option.some.inj hrun ▸ hbatch
  | cons a as ih =>
      obtain ⟨h₁, hstep, hrun⟩ := run_cons_eq_some.mp hrun
      refine ih (hbatch.step ?_ hstep)
        (fun later hmem ↦ has later (List.mem_cons_of_mem _ hmem)) hrun
      rintro later rfl
      exact has later List.mem_cons_self

/-- A `handle_read` that comes to its end has run the timers that were due. -/
theorem ran_of_handleRead {h₀ h : History} {readAt now later : Int} {during : List Action}
    (hinv : h₀.Inv) (hduring : ∀ time, .endRead time ∉ during)
    (hrun : run step h₀ (.beginRead readAt now :: (during ++ [.endRead later])) = some h) :
    h.ran = h₀.ran ++ (h₀.queue.due now).map (·, now) := by
  obtain ⟨h₁, hbegin, hrun⟩ := run_cons_eq_some.mp hrun
  obtain ⟨h₂, hmiddle, hrun⟩ := run_append_eq_some.mp hrun
  obtain ⟨h₃, hend, hrun⟩ := run_cons_eq_some.mp hrun
  cases hrun
  obtain ⟨-, done, rest, hrest, hdue, hran⟩ := (batch_beginRead hinv hbegin).run hduring hmiddle
  rcases step_cases hend with ⟨_, _, _, ha, -⟩ | ⟨_, _, ha, -⟩ | ⟨_, _, ha, -⟩ |
    ⟨_, ha, hbusy, -, -, -, hran', -⟩
  · cases ha
  · cases ha
  · cases ha
  · rw [hrest] at hbusy
    cases hbusy
    rw [hran', hran, hdue, List.append_nil]

/-! ## Runs -/

/-- **Timers are run once, in order, and not early.**  In every run in which a timer
that is added has an address of its own, whatever the clock shows: every timer that
was added has been run once, or has been taken out to be run next, or is in the set;
none was run by a `handle_read` whose `now` was before its deadline; and a whole
`handle_read` runs the timers that were in the set when it began and whose deadline
is not past its `now`, each once, in the order of the deadlines. -/
theorem fires_once (clock : Int) (as : List Action) (h : History)
    (hfresh : AllSteps step Fresh (new clock) as) (hrun : run step (new clock) as = some h) :
    h.added.Perm (h.ran.map Prod.fst ++ (h.queue.toRun ++ h.queue.timers.elems)) ∧
      (∀ p ∈ h.ran, deadline p.1 ≤ p.2) ∧
      ∀ before readAt now during later,
        as = before ++ .beginRead readAt now :: (during ++ [.endRead later]) →
        (∀ time, .endRead time ∉ during) →
          ∃ h₀, run step (new clock) before = some h₀ ∧
            h.ran = h₀.ran ++ (h₀.queue.due now).map (·, now) ∧
            (h₀.queue.due now).Pairwise (deadline · ≤ deadline ·) ∧ (h₀.queue.due now).Nodup := by
  have hinv := run_invariant_of_allSteps (fun _ _ _ ↦ step_inv) (inv_new clock) hfresh hrun
  refine ⟨hinv.accounted, hinv.ran_due, ?_⟩
  rintro before readAt now during later rfl hduring
  obtain ⟨h₀, hbefore, hrest⟩ := run_append_eq_some.mp hrun
  have hinv₀ := run_invariant_of_allSteps (fun _ _ _ ↦ step_inv) (inv_new clock)
    hfresh.of_append hbefore
  exact ⟨h₀, hbefore, ran_of_handleRead hinv₀ hduring hrest, h₀.queue.pairwise_due now⟩

/-- Two timers due at the same instant, the first of which adds one that is due
already, while the clock steps back. -/
theorem fires_once_run :
    ∃ h, run step (new 0) ([.addTimer 5 1 0, .addTimer 9 3 1, .addTimer 5 2 0] ++
        .beginRead 5 5 :: ([.runNext, .addTimer 4 4 3, .runNext] ++ [.endRead 2])) = some h ∧
      h.added.Perm (h.ran.map Prod.fst ++ (h.queue.toRun ++ h.queue.timers.elems)) ∧
      h.ran = [(toLex (5, 1), 5), (toLex (5, 2), 5)] := by
  obtain ⟨h, hrun, -⟩ := exists_run step (new 0) ([.addTimer 5 1 0, .addTimer 9 3 1,
    .addTimer 5 2 0] ++ .beginRead 5 5 :: ([.runNext, .addTimer 4 4 3, .runNext] ++ [.endRead 2]))
    (fun _ ↦ true) (by decide +kernel)
  obtain ⟨haccounted, -, hbatches⟩ := fires_once 0 _ h (by decide +kernel) hrun
  obtain ⟨h₀, hbefore, hran, -⟩ := hbatches _ 5 5 _ 2 rfl (by simp)
  refine ⟨h, hrun, haccounted, ?_⟩
  rw [hran]
  cases hbefore
  decide +kernel

end History

end Wuduo.TimerQueue
