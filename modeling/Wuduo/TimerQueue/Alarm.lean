import Wuduo.TimerQueue

/-!
# When the timer queue is armed

Between two steps of the queue its alarm should cover the first timer: expire at
its deadline at the latest or, if it is due already, have expired without being
read.  `Armed` says so.

`reset_alarm` hands the kernel the time from the reading of the clock to the
deadline, in whole seconds and a rest.  Both parts have the sign of that time, so
`::timerfd_settime` arms the alarm if the time is positive, disarms it if it is
zero, and refuses if it is negative (`resetAlarm_alarm`).  The time is the one that
64 bits hold.  So a deadline that is ahead by 2^63 nanoseconds or more is refused
like a past one, and for one that is past by more than that the alarm is armed.

## Results

* `visits_armed_iff`: a run keeps the queue armed if and only if each `reset_alarm`
  that ends a step is asked for a deadline ahead, or for one it refuses while an
  alarm that is still to be read covers it (`Covers`).
* `not_armed_of_past`: a deadline that is past already.
-/

namespace Wuduo.TimerQueue

open Transition

/-! ## `reset_alarm` -/

/-- The seconds and the rest of a time have its sign, and make it up. -/
theorem seconds_and_rest (delta : Int) :
    (delta.tdiv nanosecondsPerSecond < 0 ∨ delta.tmod nanosecondsPerSecond < 0 ↔ delta < 0) ∧
      delta.tdiv nanosecondsPerSecond * nanosecondsPerSecond + delta.tmod nanosecondsPerSecond
        = delta := by
  have hsum := Int.tdiv_mul_add_tmod delta nanosecondsPerSecond
  have hpos : 0 ≤ nanosecondsPerSecond := by decide
  refine ⟨⟨fun h ↦ ?_, fun h ↦ ?_⟩, hsum⟩
  · by_contra hneg
    have hsec := Int.tdiv_nonneg (Int.not_lt.mp hneg) hpos
    have hnsec := Int.tmod_nonneg nanosecondsPerSecond (Int.not_lt.mp hneg)
    omega
  · by_contra hall
    obtain ⟨hsec, hnsec⟩ := not_or.mp hall
    have := Int.mul_nonneg (Int.not_lt.mp hsec) hpos
    omega

section

variable {time now : Int} (htime : IsTimestamp time) (hnow : IsTimestamp now)
include htime hnow

/-- What is taken for the past: the past, unless it is too long ago, and what is too
far ahead. -/
theorem sub_neg_iff :
    sub time now < 0 ↔ time < now ∧ now - time ≤ 2 ^ 63 ∨ 2 ^ 63 ≤ time - now := by
  obtain ⟨hle, hlt⟩ := htime
  obtain ⟨hle', hlt'⟩ := hnow
  rw [sub, Int.bmod_eq_emod]
  split <;> omega

theorem sub_eq_zero_iff : sub time now = 0 ↔ time = now := by
  obtain ⟨hle, hlt⟩ := htime
  obtain ⟨hle', hlt'⟩ := hnow
  rw [sub, Int.bmod_eq_emod]
  split <;> omega

end

/-- A time that fits into 64 bits. -/
theorem sub_of_fits {time now : Int} (hlow : -2 ^ 63 ≤ time - now) (hhigh : time - now < 2 ^ 63) :
    sub time now = time - now :=
  Int.bmod_eq_of_le_mul_two (by omega) (by omega)

/-- What `reset_alarm` does to the alarm. -/
theorem resetAlarm_alarm (q : TimerQueue) (deadline now : Int) :
    (q.resetAlarm deadline now).alarm =
      if sub deadline now < 0 then q.alarm
      else if sub deadline now = 0 then none else some (now + sub deadline now) := by
  obtain ⟨hneg, hsum⟩ := seconds_and_rest (sub deadline now)
  simp only [resetAlarm, settime, hneg, hsum]
  by_cases hlt : sub deadline now < 0
  · rw [if_pos hlt, if_pos hlt]
  rw [if_neg hlt, if_neg hlt]
  by_cases heq : sub deadline now = 0
  · rw [if_pos heq, if_pos]
    rw [heq]
    exact ⟨Int.zero_tdiv _, Int.zero_tmod _⟩
  · rw [if_neg heq, if_neg]
    rintro ⟨hsec, hnsec⟩
    rw [hsec, hnsec] at hsum
    exact heq hsum.symm

/-! ## The property -/

/-- The alarm expires by the given time. -/
def ExpiresBy (q : TimerQueue) (time : Int) : Prop :=
  ∃ expiry, q.alarm = some expiry ∧ expiry ≤ time

/-- Unless `handle_read` is running, the alarm of a queue with timers expires by
the first deadline, or has expired if that is past. -/
def Armed (q : TimerQueue) : Prop :=
  q.running = none → ∀ deadline, q.earliest = some deadline → q.ExpiresBy (max deadline q.clock)

/-- `reset_alarm` of this deadline, at this reading of the clock, leaves an alarm that
covers it: the deadline is ahead, by what 64 bits hold; or the kernel refuses, as the
deadline is past or further ahead than that, and there is an alarm still to be read,
which has expired or expires by the deadline. -/
def Covers (q : TimerQueue) (deadline now : Int) : Prop :=
  now < deadline ∧ deadline - now < 2 ^ 63 ∨
    deadline < now ∧ now - deadline ≤ 2 ^ 63 ∧ q.ExpiresBy now ∨
    2 ^ 63 ≤ deadline - now ∧ q.ExpiresBy deadline

theorem resetAlarm_expiresBy_iff (q : TimerQueue) {deadline now : Int}
    (hdeadline : IsTimestamp deadline) (hnow : IsTimestamp now) :
    (q.resetAlarm deadline now).ExpiresBy (max deadline now) ↔ q.Covers deadline now := by
  rw [ExpiresBy, resetAlarm_alarm, Covers]
  rcases lt_trichotomy (sub deadline now) 0 with hneg | hzero | hpos
  · -- refused
    rw [if_pos hneg]
    rcases (sub_neg_iff hdeadline hnow).mp hneg with ⟨hpast, hle⟩ | hfar
    · rw [max_eq_right hpast.le]
      refine ⟨fun h ↦ .inr (.inl ⟨hpast, hle, h⟩), ?_⟩
      rintro (⟨hahead, -⟩ | ⟨-, -, h⟩ | ⟨hfar, -⟩)
      · exact absurd hahead hpast.asymm
      · exact h
      · omega
    · rw [max_eq_left (by omega)]
      refine ⟨fun h ↦ .inr (.inr ⟨hfar, h⟩), ?_⟩
      rintro (⟨-, hnear⟩ | ⟨hpast, -⟩ | ⟨-, h⟩)
      · exact absurd hfar hnear.not_ge
      · omega
      · exact h
  · -- disarmed
    have heq := (sub_eq_zero_iff hdeadline hnow).mp hzero
    rw [if_neg hzero.not_lt, if_pos hzero, heq]
    simp
  · -- armed
    rw [if_neg hpos.asymm, if_neg hpos.ne']
    have hrefused := (sub_neg_iff hdeadline hnow).not.mp hpos.asymm
    by_cases hahead : now < deadline
    · refine iff_of_true ⟨_, rfl, ?_⟩ (.inl ⟨hahead, by omega⟩)
      rw [sub_of_fits (by omega) (by omega), max_eq_left hahead.le]
      omega
    · refine iff_of_false ?_ fun h ↦ ?_
      · rintro ⟨expiry, hexpiry, hle⟩
        cases hexpiry
        rw [max_eq_right (not_lt.mp hahead)] at hle
        omega
      · rcases h with ⟨h, -⟩ | ⟨hpast, hle, -⟩ | ⟨hfar, -⟩
        · exact hahead h
        · exact hrefused (.inl ⟨hpast, hle⟩)
        · exact hrefused (.inr hfar)

/-- The first deadline once a timer is added. -/
theorem earliest_addTimer (q : TimerQueue) (deadline : Int) (addr : Nat) (now : Int) :
    (q.addTimer deadline addr now).earliest = some (q.earliest.elim deadline (min deadline)) := by
  rw [earliest, earliest, addTimer_timers, OrderedSet.first_emplace, Option.map_some]
  cases q.timers.first with
  | none => rfl
  | some e => exact congrArg some (Monotone.map_min Prod.Lex.monotone_fst_ofLex)

/-- A timer that comes first has the alarm reset; any other leaves the first
deadline and the alarm as they are. -/
theorem addTimer_cases (q : TimerQueue) (deadline : Int) (addr : Nat) (now : Int) :
    q.isEarlier deadline = true ∧ (q.addTimer deadline addr now).earliest = some deadline ∧
        (q.addTimer deadline addr now).alarm = (q.resetAlarm deadline now).alarm ∨
      q.isEarlier deadline = false ∧ (q.addTimer deadline addr now).earliest = q.earliest ∧
        (q.addTimer deadline addr now).alarm = q.alarm := by
  have hearliest := earliest_addTimer q deadline addr now
  cases hearlier : q.isEarlier deadline with
  | true =>
      refine .inl ⟨rfl, ?_, by rw [addTimer, hearlier]; rfl⟩
      rw [hearliest]
      rw [isEarlier] at hearlier
      cases he : q.earliest with
      | none => rfl
      | some d =>
          rw [he] at hearlier
          rw [Option.elim_some, min_eq_left (of_decide_eq_true hearlier).le]
  | false =>
      refine .inr ⟨rfl, ?_, by rw [addTimer, hearlier]; rfl⟩
      rw [hearliest]
      rw [isEarlier] at hearlier
      cases he : q.earliest with
      | none => rw [he] at hearlier; cases hearlier
      | some d =>
          rw [he] at hearlier
          rw [Option.elim_some, min_eq_right (not_lt.mp (of_decide_eq_false hearlier))]

/-! ## Steps and runs -/

/-- The readings of the clock do not step back. -/
def NonDecreasing (q : TimerQueue) : Action → Prop
  | .addTimer _ _ now => q.clock ≤ now
  | .beginRead readAt now => q.clock ≤ readAt ∧ readAt ≤ now
  | .runNext => True
  | .endRead now => q.clock ≤ now

instance : ∀ (q : TimerQueue) (a : Action), Decidable (q.NonDecreasing a)
  | q, .addTimer _ _ now => inferInstanceAs (Decidable (q.clock ≤ now))
  | q, .beginRead readAt now => inferInstanceAs (Decidable (q.clock ≤ readAt ∧ readAt ≤ now))
  | _, .runNext => inferInstanceAs (Decidable True)
  | q, .endRead now => inferInstanceAs (Decidable (q.clock ≤ now))

/-- The times that the step is given are `Timestamp`s. -/
def Action.Timestamps : Action → Prop
  | .addTimer deadline _ now => IsTimestamp deadline ∧ IsTimestamp now
  | .beginRead readAt now => IsTimestamp readAt ∧ IsTimestamp now
  | .runNext => True
  | .endRead now => IsTimestamp now

instance : ∀ a : Action, Decidable a.Timestamps
  | .addTimer _ _ _ | .beginRead _ _ => inferInstanceAs (Decidable (_ ∧ _))
  | .runNext => inferInstanceAs (Decidable True)
  | .endRead now => inferInstanceAs (Decidable (IsTimestamp now))

/-- The deadlines in the set are `Timestamp`s. -/
def Timestamps (q : TimerQueue) : Prop := ∀ e ∈ q.timers.elems, IsTimestamp (ofLex e).1

/-- If this step resets the alarm as the last thing it does to the queue, then
the alarm covers the deadline it is reset to. -/
def Rearms (q : TimerQueue) : Action → Prop
  | .addTimer deadline _ now =>
      q.running = none → q.isEarlier deadline = true → q.Covers deadline now
  | .beginRead _ _ | .runNext => True
  | .endRead now => ∀ deadline, q.earliest = some deadline → q.Covers deadline now

/-- The transition function, under a clock that does not step back; its readings and the
deadlines are `Timestamp`s. -/
abbrev stepForward : TimerQueue → Action → Option TimerQueue :=
  restrict step fun q a ↦ q.NonDecreasing a ∧ a.Timestamps

theorem Timestamps.earliest {q : TimerQueue} (h : q.Timestamps) {deadline : Int}
    (hearliest : q.earliest = some deadline) : IsTimestamp deadline := by
  obtain ⟨e, he, rfl⟩ := Option.map_eq_some_iff.mp hearliest
  exact h e (List.mem_of_mem_head? he)

theorem timestamps_step {q q' : TimerQueue} {a : Action} (h : q.Timestamps)
    (ha : a.Timestamps) (hstep : q.step a = some q') : q'.Timestamps := by
  cases a with
  | addTimer deadline addr now =>
      rw [← Option.some.inj hstep]
      intro e he
      have hmem : e ∈ (q.timers.emplace (toLex (deadline, addr))).elems := by
        rwa [← addTimer_timers q deadline addr now]
      rcases OrderedSet.mem_emplace.mp hmem with rfl | hmem
      · exact ha.1
      · exact h e hmem
  | beginRead readAt now =>
      rw [step, Option.ite_none_right_eq_some] at hstep
      rw [← Option.some.inj hstep.2]
      exact fun e he ↦ h e ((List.dropWhile_sublist _).mem he)
  | runNext =>
      rw [step] at hstep
      split at hstep
      · rw [← Option.some.inj hstep]
        exact h
      · cases hstep
  | endRead now =>
      rw [step, Option.ite_none_right_eq_some] at hstep
      rw [← Option.some.inj hstep.2]
      intro e he
      refine h e ?_
      rwa [← endRead_timers q now]

theorem armed_addTimer_iff {q : TimerQueue} (h : q.Armed) {deadline : Int} (addr : Nat) {now : Int}
    (hclock : q.clock ≤ now) (hdeadline : IsTimestamp deadline) (hnow : IsTimestamp now) :
    Armed { q.addTimer deadline addr now with clock := now } ↔
      q.Rearms (.addTimer deadline addr now) := by
  have hrunning : Armed { q.addTimer deadline addr now with clock := now } ↔
      (q.running = none → ∀ d, (q.addTimer deadline addr now).earliest = some d →
        (q.addTimer deadline addr now).ExpiresBy (max d now)) := by
    rw [← addTimer_running q deadline addr now]
    exact Iff.rfl
  rw [hrunning, Rearms]
  rcases q.addTimer_cases deadline addr now with
    ⟨hearlier, hfirst, halarm⟩ | ⟨hlater, hfirst, halarm⟩
  · simp only [hearlier, hfirst, Option.some.injEq, forall_eq', forall_const, ExpiresBy, halarm,
      ← resetAlarm_expiresBy_iff q hdeadline hnow]
  · simp only [hlater, hfirst, ExpiresBy, halarm]
    refine iff_of_true ?_ fun _ hf ↦ (by cases hf)
    intro hrun d hd
    -- the clock has moved on, so there is more time
    obtain ⟨expiry, hsome, hle⟩ := h hrun d hd
    exact ⟨expiry, hsome, hle.trans (max_le_max_left d hclock)⟩

theorem armed_endRead_iff {q : TimerQueue} (h : q.Timestamps) {now : Int}
    (hnow : IsTimestamp now) :
    Armed { q.endRead now with clock := now } ↔ q.Rearms (.endRead now) := by
  simp only [Armed, Rearms, endRead, true_implies]
  cases he : q.earliest with
  | none =>
      refine iff_of_true ?_ fun d hd ↦ (by cases hd)
      intro d hd
      exact absurd (he.symm.trans hd) (by simp)
  | some d =>
      have hsame : earliest (q.resetAlarm d now) = some d := he
      have hcovers := resetAlarm_expiresBy_iff q (h.earliest he) hnow
      refine Iff.trans ⟨fun h ↦ ?_, fun h d' hd' ↦ ?_⟩
        (hcovers.trans ⟨fun h d' hd' ↦ ?_, fun h ↦ h d rfl⟩)
      · exact h d hsame
      · cases hsame.symm.trans hd'
        exact h
      · cases hd'
        exact h

/-- A step from an armed queue leaves it armed exactly if the alarm it resets
covers the deadline it is reset to. -/
theorem armed_step_iff {q : TimerQueue} {a : Action} {q' : TimerQueue} (htimes : q.Timestamps)
    (h : q.Armed) (hstep : q.stepForward a = some q') : q'.Armed ↔ q.Rearms a := by
  obtain ⟨⟨hclock, ha⟩, hstep⟩ := restrict_eq_some.mp hstep
  cases a with
  | addTimer deadline addr now =>
      rw [← Option.some.inj hstep]
      exact armed_addTimer_iff h addr hclock ha.1 ha.2
  | beginRead readAt now =>
      rw [step] at hstep
      split at hstep
      · rw [← Option.some.inj hstep]
        exact iff_of_true (fun hrun ↦ by cases hrun) trivial
      · cases hstep
  | runNext =>
      rw [step] at hstep
      split at hstep
      · rw [← Option.some.inj hstep]
        exact iff_of_true (fun hrun ↦ by cases hrun) trivial
      · cases hstep
  | endRead now =>
      rw [step] at hstep
      split at hstep
      · rw [← Option.some.inj hstep]
        exact armed_endRead_iff htimes ha
      · cases hstep

/-- **When the timer queue stalls.**  Under a clock that does not step back, a
run keeps the queue armed after each of its steps if and only if each
`reset_alarm` that ends one is asked for a deadline that it covers: one ahead of its
reading of the clock, by what 64 bits hold, or one that it refuses while an alarm still
to be read has expired or expires by it. -/
theorem visits_armed_iff (clock : Int) (as : List Action) (q : TimerQueue)
    (h : run stepForward (new clock) as = some q) :
    Visits stepForward Armed (new clock) as ↔ AllSteps stepForward Rearms (new clock) as := by
  refine visits_iff_allSteps (I := Timestamps) ?_ ?_ ?_ ?_ h
  · intro q a q' htimes hstep
    obtain ⟨⟨-, ha⟩, hstep⟩ := restrict_eq_some.mp hstep
    exact timestamps_step htimes ha hstep
  · exact fun q a q' htimes harmed hstep ↦ armed_step_iff htimes harmed hstep
  · exact fun _ he ↦ by cases he
  · exact fun _ _ hd ↦ by cases hd

/-- Two timers, the second of which is still ahead when the first has been run. -/
theorem visits_armed_iff_run :
    Visits stepForward Armed (new 0) [.addTimer 20 1 3, .addTimer 10 2 4, .beginRead 10 11,
      .runNext, .endRead 12] := by
  obtain ⟨q, hrun, -⟩ := exists_run stepForward (new 0) [.addTimer 20 1 3, .addTimer 10 2 4,
    .beginRead 10 11, .runNext, .endRead 12] (fun _ ↦ true) (by decide +kernel)
  refine (visits_armed_iff 0 _ q hrun).mpr ⟨fun _ _ ↦ .inl (by decide), ?_⟩
  intro q₁ h₁
  cases h₁
  refine ⟨fun _ _ ↦ .inl (by decide), ?_⟩
  intro q₂ h₂
  cases h₂
  refine ⟨trivial, ?_⟩
  intro q₃ h₃
  cases h₃
  refine ⟨trivial, ?_⟩
  intro q₄ h₄
  cases h₄
  exact ⟨fun d hd ↦ .inl (by cases hd; decide), fun _ _ ↦ trivial⟩

/-- A timer whose deadline has passed when its task runs: the kernel refuses the
negative time, so nothing is to wake the loop. -/
theorem not_armed_of_past :
    ∃ q, run stepForward (new 0) [.addTimer 5 1 6] = some q ∧ ¬ q.Armed := by
  refine ⟨_, rfl, ?_⟩
  intro h
  obtain ⟨expiry, hsome, -⟩ := h rfl 5 rfl
  cases hsome

end Wuduo.TimerQueue
