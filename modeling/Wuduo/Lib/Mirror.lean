import Mathlib.Logic.Function.Basic

/-!
# A table and the views its clients keep

Every client has a key of its own in a table.  It may have an entry there, with a value and
with its name on it, and it keeps a view of what the value is, so that it need not ask.

`Mirrors` says that all views are right.  A client that changes its view and its entry alike
keeps all of them right (`Mirrors.update`).
-/

universe u v w

variable {K : Type u} {P : Type v} {V : Type w} {key : P → K} {view : P → Option V}
  {table : K → Option (V × P)}

/-- Every view is right. -/
def Mirrors (key : P → K) (view : P → Option V) (table : K → Option (V × P)) : Prop :=
  ∀ p, table (key p) = (view p).map fun v ↦ (v, p)

namespace Mirrors

theorem empty : Mirrors key (fun _ ↦ (none : Option V)) fun _ ↦ none := fun _ ↦ rfl

/-- A client changes its view and its entry. -/
theorem update [DecidableEq K] [DecidableEq P] (h : Mirrors key view table)
    (hkey : Function.Injective key) (p : P) (v : Option V) :
    Mirrors key (Function.update view p v)
      (Function.update table (key p) (v.map fun v ↦ (v, p))) := by
  intro q
  by_cases hq : q = p
  · rw [hq, Function.update_self, Function.update_self]
  · rw [Function.update_of_ne hq, Function.update_of_ne (hkey.ne hq), h q]

end Mirrors
