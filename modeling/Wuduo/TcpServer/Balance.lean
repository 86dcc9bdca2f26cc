import Wuduo.TcpServer.Cases
import Wuduo.Lib.Transition
import Mathlib.Data.Int.CardIntervalMod

/-!
# Connections are dealt out evenly

`EventLoopThreadPool::next_loop` deals the new connections out to the worker loops in turn.
The base loop gets none if there is any worker, and all of them otherwise.

## Results

* `load_balanced`: of the connections accepted so far each worker was given its share,
  rounded up or down.
-/

namespace Wuduo.TcpServer

open Transition

/-- The connections in the order in which they were accepted go to the workers in turn. -/
structure Dealt (workers : Nat) (s : TcpServer) : Prop where
  size : s.workers = workers
  next : 0 < workers → s.next = s.made % workers
  base : workers = 0 → ∀ c < s.made, s.loopOf c = 0
  turn : 0 < workers → ∀ c < s.made, s.loopOf c = c % workers + 1

theorem dealt_new (workers : Nat) : (new workers).Dealt workers where
  size := rfl
  next _ := (Nat.zero_mod _).symm
  base _ c hc := by cases hc
  turn _ c hc := by cases hc

/-- How many connections a loop was given so far. -/
def load (s : TcpServer) (l : Nat) : Nat := Nat.count (fun c ↦ s.loopOf c = l) s.made

section

variable {workers : Nat} {s t : TcpServer}

/-- A step that accepts no connection deals none out. -/
theorem Dealt.of_same (h : s.Dealt workers) (hworkers : t.workers = s.workers)
    (hnext : t.next = s.next) (hmade : t.made = s.made) (hloop : t.loopOf = s.loopOf) :
    t.Dealt workers where
  size := hworkers.trans h.size
  next hpos := by rw [hnext, hmade, h.next hpos]
  base hzero := by rw [hmade, hloop]; exact h.base hzero
  turn hpos := by rw [hmade, hloop]; exact h.turn hpos

/-- The next connection is dealt out. -/
theorem Dealt.inserted (h : s.Dealt workers) (connectionFd : Nat) {ioLoop next : Nat}
    (hnext : s.nextLoop = (ioLoop, next)) :
    (s.inserted connectionFd ioLoop next).Dealt workers := by
  have hold (c : Nat) (hc : c ≠ s.made) :
      (s.inserted connectionFd ioLoop next).loopOf c = s.loopOf c := Function.update_of_ne hc _ _
  have hnew : (s.inserted connectionFd ioLoop next).loopOf s.made = ioLoop :=
    Function.update_self _ _ _
  rw [nextLoop, h.size] at hnext
  refine ⟨h.size, fun hpos ↦ ?_, fun hzero c hc ↦ ?_, fun hpos c hc ↦ ?_⟩
  · rw [if_neg (Nat.ne_of_gt hpos), h.next hpos] at hnext
    obtain ⟨-, rfl⟩ := Prod.mk.inj hnext
    exact Nat.mod_add_mod s.made workers 1
  · rw [if_pos hzero] at hnext
    rcases Nat.lt_succ_iff_lt_or_eq.mp hc with hc | rfl
    · rw [hold c (Nat.ne_of_lt hc)]
      exact h.base hzero c hc
    · rw [hnew]
      exact (Prod.mk.inj hnext).1.symm
  · rw [if_neg (Nat.ne_of_gt hpos), h.next hpos] at hnext
    rcases Nat.lt_succ_iff_lt_or_eq.mp hc with hc | rfl
    · rw [hold c (Nat.ne_of_lt hc)]
      exact h.turn hpos c hc
    · rw [hnew]
      exact (Prod.mk.inj hnext).1.symm

theorem Dealt.of_stepped (h : s.Dealt workers) {a : Action} (hstep : Stepped s a t) :
    t.Dealt workers := by
  cases hstep with
  | @acceptBase connectionFd next hfront hnext c' hok =>
      exact (h.inserted connectionFd hnext).of_same rfl rfl rfl rfl
  | @acceptWorker connectionFd ioLoop next hfront hnext hio =>
      exact (h.inserted connectionFd hnext).of_same rfl rfl rfl rfl
  | _ => exact h.of_same rfl rfl rfl rfl

/-- What was dealt out in turn is shared out evenly. -/
theorem Dealt.load_eq (h : s.Dealt workers) (hpos : 0 < workers) {l : Nat} (hl : l < workers) :
    s.load (l + 1) = s.made / workers + if l < s.made % workers then 1 else 0 := by
  have hcount : s.load (l + 1) = Nat.count (· ≡ l [MOD workers]) s.made := by
    rw [load, Nat.count_eq_card_filter_range, Nat.count_eq_card_filter_range]
    refine congrArg Finset.card (Finset.filter_congr fun c hc ↦ ?_)
    rw [h.turn hpos c (Finset.mem_range.mp hc), Nat.ModEq, Nat.mod_eq_of_lt hl]
    omega
  rw [hcount, Nat.count_modEq_card _ hpos, Nat.mod_eq_of_lt hl]

end

/-- **Connections are dealt out evenly.**  In every run of the server without workers the
base loop is given all connections.  With workers it is given none, and of the connections
accepted so far each worker is given its share, rounded up or down. -/
theorem load_balanced (workers : Nat) (as : List Action) (s : TcpServer)
    (h : run (liftAbort step) (.ok (new workers)) as = some (.ok s)) :
    (workers = 0 → s.load 0 = s.made) ∧
      (0 < workers → s.load 0 = 0 ∧ ∀ l, 0 < l → l ≤ workers →
        s.made / workers ≤ s.load l ∧ s.load l ≤ (s.made + workers - 1) / workers) := by
  obtain ⟨-, hdealt⟩ := run_ok_invariant (I := fun s ↦ s.Inv ∧ s.Dealt workers)
    (fun s a t hs hstep ↦ ⟨hs.1.of_step hstep, hs.2.of_stepped (stepped hs.1 hstep)⟩)
    ⟨inv_new workers, dealt_new workers⟩ h
  refine ⟨fun hzero ↦ Nat.count_iff_forall.mpr (hdealt.base hzero), fun hpos ↦ ⟨?_, ?_⟩⟩
  · refine Nat.count_iff_forall_not.mpr fun c hc ↦ ?_
    rw [hdealt.turn hpos c hc]
    exact Nat.succ_ne_zero _
  · intro l hl hle
    obtain ⟨l, rfl⟩ := Nat.exists_eq_add_one_of_ne_zero (Nat.ne_of_gt hl)
    rw [hdealt.load_eq hpos hle]
    have hparts := Nat.div_add_mod' s.made workers
    split
    · refine ⟨Nat.le_succ _, (Nat.le_div_iff_mul_le hpos).mpr ?_⟩
      rw [Nat.succ_mul]
      omega
    · exact ⟨Nat.le_refl _, Nat.div_le_div_right (by omega)⟩

/-- Four connections and two workers. -/
theorem load_balanced_run :
    ∃ s, run (liftAbort step) (.ok (new 2)) [.wait 0 [.acceptor], .dispatch 0, .accept 7,
        .accept 8, .accept 9, .accept 10] = some (.ok s) ∧ s.load 1 = 2 ∧ s.load 2 ≤ 2 := by
  obtain ⟨s, hrun, hs⟩ := exists_run_ok step (.ok (new 2)) [.wait 0 [.acceptor], .dispatch 0,
    .accept 7, .accept 8, .accept 9, .accept 10] (fun s ↦ decide (s.made = 4 ∧ s.load 1 = 2))
    (by decide +kernel)
  obtain ⟨hmade, hload⟩ := of_decide_eq_true hs
  have hsecond := ((load_balanced 2 _ s hrun).2 (by decide)).2 2 (by decide) (by decide)
  rw [hmade] at hsecond
  exact ⟨s, hrun, hload, hsecond.2⟩

end Wuduo.TcpServer
