import Wuduo.Lib.Transition
import Mathlib.Data.Finset.Card
import Mathlib.Tactic.Ring

/-!
# `Epoller::wait`

`::epoll_wait` writes what it reports into `events_`, so it reports at most as many
descriptors as fit; and `wait` makes room for half as many again whenever `events_` was
filled.

What the kernel reports is given with each call.  It is assumed to be what is documented:
descriptors that are ready, each once, and no more than there is room for.  Which of them
these are, and in which order, is left open.  A channel stands for the pointer to it that
is registered with its descriptor; what `wait` stores in it is modelled by
`TcpServer.setRevents`.

## Results

* `events_bounded`: `events_` never has room for more than half as many again as were ever
  ready at once, so it is filled only a few times.
-/

namespace Wuduo

open Transition

/-- `kDefaultEventsOutputSize` -/
def Epoller.kDefaultEventsOutputSize : Nat := 128

/-- What `wait` works on. -/
structure Epoller.Events (P : Type*) where
  /-- the size of `events_` -/
  size : Nat
  /-- the channels that are ready: no part of the code -/
  ready : Finset P
deriving DecidableEq

namespace Epoller.Events

variable {P : Type*}

/-- The constructor of `Epoller`. -/
def new : Events P := ⟨kDefaultEventsOutputSize, ∅⟩

/-- What `::epoll_wait`, which has no timeout, can report. -/
structure CanReport (e : Events P) (reported : List P) : Prop where
  nonempty : reported ≠ []
  nodup : reported.Nodup
  ready : ∀ p ∈ reported, p ∈ e.ready
  length : reported.length ≤ e.size

instance [DecidableEq P] (e : Events P) (reported : List P) : Decidable (e.CanReport reported) :=
  decidable_of_iff (reported ≠ [] ∧ reported.Nodup ∧ (∀ p ∈ reported, p ∈ e.ready) ∧
      reported.length ≤ e.size)
    ⟨fun ⟨hne, hnodup, hready, hlength⟩ ↦ ⟨hne, hnodup, hready, hlength⟩,
      fun h ↦ ⟨h.nonempty, h.nodup, h.ready, h.length⟩⟩

/-- What `wait` returns, and leaves behind. -/
def wait (e : Events P) (reported : List P) : List P × Events P :=
  let numReady := reported.length
  let activeChannels := reported
  -- `1.5 * max_events` is truncated
  (activeChannels, { e with size := if numReady = e.size then 3 * e.size / 2 else e.size })

/-- What happens to an epoller, as far as `wait` is concerned. -/
inductive Action (P : Type*) where
  | becomesReady (p : P)
  | isDone (p : P)
  /-- `::epoll_wait` reports these -/
  | wait (reported : List P)
  /-- `::epoll_wait` fails with `EINTR` -/
  | interrupted
deriving DecidableEq, Repr

/-- The transition function. -/
def step [DecidableEq P] (e : Events P) : Action P → Option (Events P)
  | .becomesReady p => some { e with ready := insert p e.ready }
  | .isDone p => some { e with ready := e.ready.erase p }
  | .wait reported => if e.CanReport reported then some (e.wait reported).2 else none
  | .interrupted => some e

/-- The step fills `events_`, which had this size. -/
def filledBy (e : Events P) : Action P → List Nat
  | .wait reported => if reported.length = e.size then [e.size] else []
  | _ => []

/-! ## The size of `events_` -/

/-- `events_` has been filled so many times, while at most `numChannels` were ready. -/
structure Bounded (numChannels filled : Nat) (e : Events P) : Prop where
  least : kDefaultEventsOutputSize ≤ e.size
  most : e.size ≤ max kDefaultEventsOutputSize (3 * numChannels / 2)
  /-- each time it has got half as large again -/
  grown : (kDefaultEventsOutputSize - 1) * 3 ^ filled ≤ 2 ^ filled * (e.size - 1)

theorem bounded_new (numChannels : Nat) : (new : Events P).Bounded numChannels 0 where
  least := Nat.le_refl _
  most := Nat.le_max_left _ _
  grown := Nat.le_refl _

section

variable {numChannels filled : Nat} {e e' : Events P}

/-- No more is reported than is ready. -/
theorem CanReport.length_le_card {reported : List P} (h : e.CanReport reported) :
    reported.length ≤ e.ready.card := by
  classical
  calc reported.length
    _ = reported.toFinset.card := (List.toFinset_card_of_nodup h.nodup).symm
    _ ≤ e.ready.card := Finset.card_le_card fun p hp ↦ h.ready p (List.mem_toFinset.mp hp)

/-- Half as much again, rounded down, is more than half as much of what is above one. -/
theorem grown_succ {n : Nat} (hn : 0 < n)
    (h : (kDefaultEventsOutputSize - 1) * 3 ^ filled ≤ 2 ^ filled * (n - 1)) :
    (kDefaultEventsOutputSize - 1) * 3 ^ (filled + 1) ≤ 2 ^ (filled + 1) * (3 * n / 2 - 1) := by
  have hstep : 3 * (n - 1) ≤ 2 * (3 * n / 2 - 1) := by omega
  calc (kDefaultEventsOutputSize - 1) * 3 ^ (filled + 1)
    _ = 3 * ((kDefaultEventsOutputSize - 1) * 3 ^ filled) := by ring
    _ ≤ 3 * (2 ^ filled * (n - 1)) := Nat.mul_le_mul_left 3 h
    _ = 2 ^ filled * (3 * (n - 1)) := by ring
    _ ≤ 2 ^ filled * (2 * (3 * n / 2 - 1)) := Nat.mul_le_mul_left _ hstep
    _ = 2 ^ (filled + 1) * (3 * n / 2 - 1) := by ring

theorem Bounded.wait (h : e.Bounded numChannels filled) (hready : e.ready.card ≤ numChannels)
    {reported : List P} (hcan : e.CanReport reported) :
    (e.wait reported).2.Bounded numChannels (filled + (e.filledBy (.wait reported)).length) := by
  by_cases hfull : reported.length = e.size
  · have hsize : (e.wait reported).2.size = 3 * e.size / 2 := if_pos hfull
    have hle : e.size ≤ numChannels := by
      rw [← hfull]
      exact Nat.le_trans hcan.length_le_card hready
    have hleast := h.least
    rw [filledBy, if_pos hfull]
    constructor
    · rw [hsize]
      omega
    · rw [hsize]
      exact Nat.le_trans (by omega) (Nat.le_max_right _ _)
    · rw [hsize]
      exact grown_succ (Nat.lt_of_lt_of_le (by decide) h.least) h.grown
  · have hsize : (e.wait reported).2.size = e.size := if_neg hfull
    rw [filledBy, if_neg hfull]
    exact ⟨hsize ▸ h.least, hsize ▸ h.most, hsize ▸ h.grown⟩

variable [DecidableEq P]

theorem Bounded.step {a : Action P} (h : e.Bounded numChannels filled)
    (hready : e.ready.card ≤ numChannels) (hstep : e.step a = some e') :
    e'.Bounded numChannels (filled + (e.filledBy a).length) := by
  cases a with
  | becomesReady p =>
      cases hstep
      exact ⟨h.least, h.most, h.grown⟩
  | isDone p =>
      cases hstep
      exact ⟨h.least, h.most, h.grown⟩
  | wait reported =>
      rw [Events.step, Option.ite_none_right_eq_some] at hstep
      obtain ⟨hcan, hstep⟩ := hstep
      cases hstep
      exact h.wait hready hcan
  | interrupted =>
      cases hstep
      exact h

/-- **`events_` stays small.**  In every run in which at most so many channels are ready at
once, and whichever of them are reported, `events_` has room for 128 at first and never for
more than half as many again as channels were ready; and each time it is filled it gets half
as large again, so that happens only a few times. -/
theorem events_bounded (numChannels : Nat) (as : List (Action P)) (e : Events P)
    (h : run step new as = some e)
    (hready : Visits step (fun e ↦ e.ready.card ≤ numChannels) new as) :
    e.Bounded numChannels (outputs step filledBy new as).length := by
  have hbounded : e.Bounded numChannels ([] ++ outputs step filledBy new as).length := by
    refine run_outputs_invariant
      (P := fun (e : Events P) (filled : List Nat) ↦ e.Bounded numChannels filled.length) ?_
      (bounded_new numChannels) hready.allSteps h
    intro e a e' filled he hsteps hstep
    rw [List.length_append]
    exact he.step hsteps.1 hstep
  exact hbounded

end

/-- As many channels become ready as fit into `events_`, and all of them are reported. -/
theorem events_bounded_run :
    ∃ e, run step (new : Events Nat)
        ((List.range 128).map .becomesReady ++ [.wait (List.range 128)]) = some e ∧
      e.size = 192 ∧ e.Bounded 128 1 := by
  obtain ⟨e, hrun, he⟩ := exists_run step (new : Events Nat)
    ((List.range 128).map .becomesReady ++ [.wait (List.range 128)])
    (fun e ↦ decide (e.size = 192)) (by decide +kernel)
  have hfilled : (outputs step filledBy (new : Events Nat)
      ((List.range 128).map .becomesReady ++ [.wait (List.range 128)])).length = 1 := by
    decide +kernel
  have hbounded := events_bounded 128 _ e hrun (by decide +kernel)
  rw [hfilled] at hbounded
  exact ⟨e, hrun, of_decide_eq_true he, hbounded⟩

end Epoller.Events

end Wuduo
