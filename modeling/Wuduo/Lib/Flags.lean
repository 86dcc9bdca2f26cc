import Mathlib.Data.BitVec

/-!
# Flag sets in a bit vector

A mask selects flags of a bit vector; `any e m` asks whether one of the flags in
`m` is set in `e`.  Setting is `e ||| m` and clearing is `e &&& ~~~m`, and the
lemmas say what either does to the flags of the same mask, and to those of a disjoint
one.
-/

namespace Flags

variable {w : Nat} {e m n : BitVec w}

/-- Some flag of `m` is set in `e`. -/
def any (e m : BitVec w) : Bool := e &&& m != 0#w

@[simp] theorem any_zero : any 0#w m = false := by simp [any]

/-- A vector with a flag set is not zero. -/
theorem ne_zero_of_any (h : any e m = true) : e ≠ 0#w := by
  rintro rfl
  simp at h

theorem or_ne_zero (h : m ≠ 0#w) : e ||| m ≠ 0#w := by
  intro h₀
  exact h (BitVec.or_eq_zero_iff.mp h₀).2

theorem any_set (h : m ≠ 0#w) : any (e ||| m) m = true := by
  have hm : (e ||| m) &&& m = m := by
    ext i hi
    simp only [BitVec.getElem_and, BitVec.getElem_or]
    grind
  simpa [any, hm] using h

@[simp] theorem any_clear : any (e &&& ~~~m) m = false := by
  have hm : e &&& ~~~m &&& m = 0#w := by
    ext i hi
    simp only [BitVec.getElem_and, BitVec.getElem_not, BitVec.getElem_zero]
    grind
  simp [any, hm]

/-- Setting flags leaves the others alone. -/
theorem any_set_of_disjoint (h : m &&& n = 0#w) : any (e ||| n) m = any e m := by
  have hm : (e ||| n) &&& m = e &&& m := by
    ext i hi
    have hi' := congrArg (fun v : BitVec w ↦ v[i]) h
    simp only [BitVec.getElem_and, BitVec.getElem_or, BitVec.getElem_zero] at hi' ⊢
    grind
  rw [any, any, hm]

/-- Clearing flags leaves the others alone. -/
theorem any_clear_of_disjoint (h : m &&& n = 0#w) : any (e &&& ~~~n) m = any e m := by
  have hm : e &&& ~~~n &&& m = e &&& m := by
    ext i hi
    have hi' := congrArg (fun v : BitVec w ↦ v[i]) h
    simp only [BitVec.getElem_and, BitVec.getElem_not, BitVec.getElem_zero] at hi' ⊢
    grind
  rw [any, any, hm]

end Flags
