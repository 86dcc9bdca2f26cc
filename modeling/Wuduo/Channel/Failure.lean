import Wuduo.Channel.Interest

/-!
# When `::epoll_ctl` fails

The kernel can refuse what it is asked, for want of memory or of watches, and then leaves
its list as it is.  A channel has changed `events_` by then, and does not take it back; only
`in_interest_list_` is set from what the kernel has done.  So the two no longer describe
the entry of the channel, unless the mask was not changed at all.

When it was the first thing to be enabled, the channel says that it watches something and
is not listed.  Whoever asks `has_none_events()` before `disable_all()` then fails the
assertion of `ctl_op_from`.

## Results

* `consistent_iff`: the channels are consistent throughout a run exactly if each call that
  fails asks for the mask that the channel has already.
* `not_consistent`: what happens when it does not.
-/

namespace Wuduo.Interests

open Transition

variable {P : Type} [DecidableEq P] {fd : P → Nat} {w : Interests P}

/-- An operation of a channel, and whether the kernel does what it is asked for it. -/
structure Attempt (P : Type) where
  ptr : P
  operation : Channel.Operation
  granted : Bool
deriving DecidableEq, Repr

/-- Something is disabled only when `has_none_events()` says that there is something. -/
def Permits (w : Interests P) (a : Attempt P) : Prop :=
  a.operation.isDisable = true → (w.channels a.ptr).hasNoneEvents = false

instance (w : Interests P) (a : Attempt P) : Decidable (w.Permits a) :=
  inferInstanceAs (Decidable (_ → _))

/-- The transition function. -/
def attempt (w : Interests P) (a : Attempt P) : Option (Except NoReturn (Interests P)) :=
  if w.Permits a then some ((w.call a.granted a.ptr a.operation).map Prod.snd) else none

/-- What the channel knows of its entry is right: it is not listed, or listed with its
mask. -/
def Describes (w : Interests P) (p : P) : Prop :=
  (w.channels p).inInterestList = false ∧ w.list (w.channels p).fd = none ∨
    (w.channels p).inInterestList = true ∧
      w.list (w.channels p).fd = some ((w.channels p).events, p)

instance (w : Interests P) (p : P) : Decidable (w.Describes p) :=
  inferInstanceAs (Decidable (_ ∨ _))

/-- What the channels know is right, and nothing they are asked to do later fails an
assertion while the kernel does its part. -/
structure Consistent (w : Interests P) : Prop where
  describes : ∀ p, w.Describes p
  safe : ∀ (later : List (Attempt P)) (r : Except NoReturn (Interests P)),
    (∀ a ∈ later, a.granted = true) → run (liftAbort attempt) (.ok w) later = some r →
      ∃ w', r = .ok w'

/-- If the kernel does not do what it is asked, it was asked for what it had. -/
def KeepsMask (w : Interests P) (a : Attempt P) : Prop :=
  a.granted = true ∨
    a.operation.change (w.channels a.ptr).events = (w.channels a.ptr).events

instance (w : Interests P) (a : Attempt P) : Decidable (w.KeepsMask a) :=
  inferInstanceAs (Decidable (_ ∨ _))

/-! ## Consistent channels -/

omit [DecidableEq P] in
/-- What is permitted can be asked of the kernel. -/
theorem Inv.asks (h : w.Inv fd) {a : Attempt P} (hpermits : w.Permits a) :
    (w.channels a.ptr).inInterestList = true ∨
      ((w.channels a.ptr).ask a.operation).events ≠ 0 :=
  Channel.asks fun hdisable ↦ by
    rw [h.synced a.ptr, hpermits hdisable]
    rfl

omit [DecidableEq P] in
theorem Inv.describes (h : w.Inv fd) (p : P) : w.Describes p := by
  rw [Describes, h.list_eq p, h.synced p, Channel.wanted]
  cases (w.channels p).hasNoneEvents with
  | true => exact .inl ⟨rfl, rfl⟩
  | false => exact .inr ⟨rfl, rfl⟩

/-- What the kernel does keeps everything in step, and so does what it does not do if it
is no change. -/
theorem attempt_inv (hfd : Function.Injective fd) (w : Interests P) (a : Attempt P)
    (r : Except NoReturn (Interests P)) (h : w.Inv fd) (hkeeps : w.KeepsMask a)
    (hstep : w.attempt a = some r) : ∃ w', r = .ok w' ∧ w'.Inv fd := by
  obtain ⟨hpermits, hstep⟩ := (Option.ite_none_right_eq_some).mp hstep
  cases hgranted : a.granted with
  | true =>
      obtain ⟨w', hcall, hinv⟩ := h.call hfd (h.asks hpermits)
      rw [hgranted, hcall] at hstep
      exact ⟨w', (Option.some.inj hstep).symm, hinv⟩
  | false =>
      have hmask := hkeeps.resolve_left (by rw [hgranted]; exact Bool.false_ne_true)
      have hask : (w.channels a.ptr).ask a.operation = w.channels a.ptr := by
        rw [Channel.ask, hmask]
      rw [hgranted, h.call_spec (h.asks hpermits) false, hask, Function.update_eq_self] at hstep
      exact ⟨w, (Option.some.inj hstep).symm, h⟩

theorem Inv.consistent (hfd : Function.Injective fd) (h : w.Inv fd) : w.Consistent where
  describes := h.describes
  safe later r hgranted hrun := by
    have hsteps : AllSteps (liftAbort attempt) (WhileAlive KeepsMask) (.ok w) later := by
      refine (allSteps_of_mem hgranted).of_invariant (I := fun _ ↦ True)
        (fun _ _ _ _ _ _ ↦ trivial) (fun r a _ ha ↦ ?_) trivial
      cases r with
      | error e => trivial
      | ok w => exact .inl ha
    obtain ⟨w', hr, -⟩ := run_alive_of_allSteps (attempt_inv hfd) h hsteps hrun
    exact ⟨w', hr⟩

/-- A channel that watches something and is not listed does not bear `disable_all()`. -/
theorem not_consistent_of_unlisted {p : P} (hlisted : (w.channels p).inInterestList = false)
    (hevents : (w.channels p).hasNoneEvents = false) : ¬ w.Consistent := by
  intro h
  have hpermits : w.Permits ⟨p, .disableAll, true⟩ := fun _ ↦ hevents
  have hstep : w.attempt ⟨p, .disableAll, true⟩ = some (.error (.assertion .ctlOpFrom)) := by
    rw [attempt, if_pos hpermits, call_disableAll_of_unlisted hlisted]
    rfl
  obtain ⟨w', hw'⟩ := h.safe [⟨p, .disableAll, true⟩] _ (by simp)
    (run_ok_cons_eq_some.mpr ⟨_, hstep, rfl⟩)
  cases hw'

/-- A change of the mask that the kernel does not make is one too many. -/
theorem not_consistent_of_not_keepsMask (w : Interests P) (a : Attempt P)
    (r : Except NoReturn (Interests P)) (h : w.Inv fd) (hkeeps : ¬ w.KeepsMask a)
    (hstep : w.attempt a = some r) : ¬ Alive Consistent r := by
  obtain ⟨hpermits, hstep⟩ := (Option.ite_none_right_eq_some).mp hstep
  obtain ⟨hgranted, hmask⟩ := not_or.mp hkeeps
  rw [Bool.not_eq_true] at hgranted
  rw [hgranted, h.call_spec (h.asks hpermits) false] at hstep
  cases hstep
  let w' : Interests P :=
    ⟨Function.update w.channels a.ptr ((w.channels a.ptr).ask a.operation), w.list⟩
  have hch : w'.channels a.ptr = (w.channels a.ptr).ask a.operation := Function.update_self ..
  have hlisted' : (w'.channels a.ptr).inInterestList = (w.channels a.ptr).inInterestList := by
    rw [hch]
    rfl
  intro (hcons : w'.Consistent)
  cases hlisted : (w.channels a.ptr).inInterestList with
  | true =>
      -- The list still has the old mask.
      have hold := (h.describes a.ptr).resolve_left (by simp [hlisted])
      have hnew := (hcons.describes a.ptr).resolve_left (by simp [hlisted', hlisted])
      rw [hch] at hnew
      exact hmask (congrArg Prod.fst (Option.some.inj (hnew.2.symm.trans hold.2)))
  | false =>
      -- It was the first thing that was enabled.
      have hevents := (h.asks hpermits).resolve_left (by rw [hlisted]; exact Bool.false_ne_true)
      rw [← Channel.hasNoneEvents_eq_false_iff, ← hch] at hevents
      exact not_consistent_of_unlisted (hlisted'.trans hlisted) hevents hcons

/-! ## Runs -/

/-- **Failures that leave the channels consistent.**  They are those of calls that ask for
no change. -/
theorem consistent_iff (fd : P → Nat) (hfd : Function.Injective fd) (attempts : List (Attempt P))
    (r : Except NoReturn (Interests P))
    (h : run (liftAbort attempt) (.ok (new fd)) attempts = some r) :
    Visits (liftAbort attempt) (Alive Consistent) (.ok (new fd)) attempts ↔
      AllSteps (liftAbort attempt) (WhileAlive KeepsMask) (.ok (new fd)) attempts := by
  refine visits_iff_allSteps_of_invariant (I := Alive (Inv fd)) ?_ ?_ ?_ (inv_new fd) h
  · intro r hr
    cases r with
    | error e => exact hr
    | ok w => exact Inv.consistent hfd hr
  · intro r a r' hr hkeeps hstep
    cases r with
    | error e => cases hstep
    | ok w =>
        obtain ⟨w', rfl, hw'⟩ := attempt_inv hfd w a r' hr hkeeps hstep
        exact hw'
  · intro r a r' hr hkeeps hstep
    cases r with
    | error e => cases hstep
    | ok w => exact not_consistent_of_not_keepsMask w a r' hr hkeeps hstep

/-- A call that fails, and asks for what is enabled already. -/
theorem consistent_iff_run :
    Visits (liftAbort attempt) (Alive Consistent) (.ok (new fun _ : Unit ↦ 5))
      [⟨(), .enableReading, true⟩, ⟨(), .enableReading, false⟩, ⟨(), .disableAll, true⟩] := by
  obtain ⟨r, hrun, -⟩ := exists_run (liftAbort attempt) (.ok (new fun _ : Unit ↦ 5))
    [⟨(), .enableReading, true⟩, ⟨(), .enableReading, false⟩, ⟨(), .disableAll, true⟩]
    (fun _ ↦ true) (by decide +kernel)
  exact (consistent_iff (fun _ ↦ 5) (fun _ _ _ ↦ rfl) _ r hrun).mpr (by decide +kernel)

/-- A descriptor that cannot be added: `has_none_events()` permits `disable_all()`, which
fails an assertion.  A mask that cannot be changed, and a descriptor that cannot be removed,
are not what the channel takes them for. -/
theorem not_consistent :
    (run (liftAbort attempt) (.ok (new fun _ : Unit ↦ 5))
        [⟨(), .enableReading, false⟩, ⟨(), .disableAll, true⟩]
          = some (.error (.assertion .ctlOpFrom))) ∧
    ¬ Visits (liftAbort attempt) (Alive Consistent) (.ok (new fun _ : Unit ↦ 5))
      [⟨(), .enableReading, false⟩] ∧
    ¬ Visits (liftAbort attempt) (Alive Consistent) (.ok (new fun _ : Unit ↦ 5))
      [⟨(), .enableReading, true⟩, ⟨(), .enableWriting, false⟩] ∧
    ¬ Visits (liftAbort attempt) (Alive Consistent) (.ok (new fun _ : Unit ↦ 5))
      [⟨(), .enableReading, true⟩, ⟨(), .disableAll, false⟩] := by
  have hend {attempts : List (Attempt Unit)} {w : Interests Unit}
      (hV : Visits (liftAbort attempt) (Alive Consistent) (.ok (new fun _ : Unit ↦ 5)) attempts)
      (hrun : run (liftAbort attempt) (.ok (new fun _ ↦ 5)) attempts = some (.ok w)) :
      w.Consistent := hV.last hrun
  refine ⟨rfl, fun hV ↦ ?_, fun hV ↦ ?_, fun hV ↦ ?_⟩
  · obtain ⟨w, hw⟩ := (hend hV rfl).safe [⟨(), .disableAll, true⟩] _ (by decide) rfl
    cases hw
  · exact absurd ((hend hV rfl).describes ()) (by decide +kernel)
  · exact absurd ((hend hV rfl).describes ()) (by decide +kernel)

end Wuduo.Interests
