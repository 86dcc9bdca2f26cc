import Mathlib.Init

/-!
# Two computations side by side

Two computations that can fail are compared by a relation between what they return:
`Both R x y` says that they fail in the same way, or return related results.  It is kept
up by what is done with results that are related (`Both.bind`), and becomes an equation
where nothing is left of the difference (`Both.map_eq`).
-/

universe u v

/-- Both computations fail in the same way, or both return, with related results. -/
inductive Both {E : Type u} {A B : Type v} (R : A → B → Prop) : Except E A → Except E B → Prop where
  | error (e : E) : Both R (.error e) (.error e)
  | ok {a : A} {b : B} (h : R a b) : Both R (.ok a) (.ok b)

namespace Both

variable {E : Type u} {A B C D : Type v} {R : A → B → Prop} {Q : C → D → Prop} {x : Except E A}
  {y : Except E B}

theorem refl {R : A → A → Prop} (h : ∀ a, R a a) (x : Except E A) : Both R x x := by
  cases x with
  | error e => exact .error e
  | ok a => exact .ok (h a)

theorem bind {f : A → Except E C} {g : B → Except E D} (h : Both R x y)
    (hfg : ∀ a b, R a b → Both Q (f a) (g b)) : Both Q (x >>= f) (y >>= g) := by
  cases h with
  | error e => exact .error e
  | ok hab => exact hfg _ _ hab

theorem ok_bind {a : A} {b : B} {f : A → Except E C} {g : B → Except E D}
    (h : Both Q (f a) (g b)) : Both Q (Except.ok a >>= f) (Except.ok b >>= g) := h

theorem map_eq {f : A → C} {g : B → C} (h : Both R x y) (hfg : ∀ a b, R a b → f a = g b) :
    x.map f = y.map g := by
  cases h with
  | error e => rfl
  | ok hab => exact congrArg Except.ok (hfg _ _ hab)

end Both
