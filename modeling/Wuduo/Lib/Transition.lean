import Mathlib.Data.List.Basic

/-!
# Runs of a labelled transition system

A system is given by its step function `step : S → A → Option S`.  The label
carries every choice the step leaves open — who acts, what the environment
answers — so a step is a function of state and label; `none` says that the
label cannot occur in that state.  A run is a list of labels.

A few rules carry an argument about one step to an argument about runs:

* `run_invariant_of_allSteps`: what every step that meets a condition `C` preserves
  holds at the end of every run whose steps all meet `C`;
* `AllSteps.of_invariant`: what holds of a step that meets `C` from a state with such an
  invariant holds of every step of such a run;
* `run_invariant_of_visits`: what every step from a state with `P` preserves holds at
  the end of every run that visits only states with `P`;
* `countP_add_potential_le`: steps that each use up some of a potential are as many as the
  potential allows;
* `outputs_conserved`: what goes in comes out, in the same order, along every run in
  whose steps it does;
* `run_outputs_invariant`: what every step preserves of the state and of what was put out
  so far holds at the end of every run;
* `exists_run_emitted`: if the steps of one system are each matched by a few steps of
  another, then its runs are matched by runs of the other;
* `visits_iff_allSteps`: if a step keeps a property exactly when it meets `C`,
  then a run visits only states with the property exactly when all of its steps
  meet `C`; `visits_iff_allSteps_of_invariant` is for a property that is known to be kept
  only together with an invariant.

`liftAbort` is for systems in which a step may also bring the whole system down:
the states of the lifted system are the values and the reasons for which it
went down, and nothing happens after that.
-/

namespace Transition

universe u v w

variable {S : Type u} {A : Type v} {E : Type w}

/-- The state a list of labels leads to, if each of them can occur in turn. -/
def run (step : S → A → Option S) : S → List A → Option S
  | s, [] => some s
  | s, a :: as => (step s a).bind fun t ↦ run step t as

/-- Every step taken along the run meets the condition `C`. -/
def AllSteps (step : S → A → Option S) (C : S → A → Prop) : S → List A → Prop
  | _, [] => True
  | s, a :: as => C s a ∧ ∀ t, step s a = some t → AllSteps step C t as

/-- Every state the run goes through, first and last included, satisfies `P`. -/
def Visits (step : S → A → Option S) (P : S → Prop) : S → List A → Prop
  | s, [] => P s
  | s, a :: as => P s ∧ ∀ t, step s a = some t → Visits step P t as

variable {step : S → A → Option S} {C : S → A → Prop} {I P : S → Prop}

instance AllSteps.decidable [∀ s a, Decidable (C s a)] :
    ∀ s as, Decidable (AllSteps step C s as)
  | _, [] => isTrue trivial
  | s, a :: as =>
      match h : step s a with
      | none => decidable_of_iff (C s a) ⟨fun hC ↦ ⟨hC, fun _ ht ↦ by simp [h] at ht⟩, And.left⟩
      | some t =>
          have : Decidable (AllSteps step C t as) := AllSteps.decidable t as
          decidable_of_iff (C s a ∧ AllSteps step C t as)
            ⟨fun hC ↦ ⟨hC.1, fun _ ht ↦ Option.some.inj (h.symm.trans ht) ▸ hC.2⟩,
              fun hC ↦ ⟨hC.1, hC.2 t h⟩⟩

instance Visits.decidable [DecidablePred P] : ∀ s as, Decidable (Visits step P s as)
  | s, [] => inferInstanceAs (Decidable (P s))
  | s, a :: as =>
      match h : step s a with
      | none => decidable_of_iff (P s) ⟨fun hP ↦ ⟨hP, fun _ ht ↦ by simp [h] at ht⟩, And.left⟩
      | some t =>
          have : Decidable (Visits step P t as) := Visits.decidable t as
          decidable_of_iff (P s ∧ Visits step P t as)
            ⟨fun hP ↦ ⟨hP.1, fun _ ht ↦ Option.some.inj (h.symm.trans ht) ▸ hP.2⟩,
              fun hP ↦ ⟨hP.1, hP.2 t h⟩⟩

@[simp] theorem run_nil (s : S) : run step s [] = some s := rfl

theorem run_cons (s : S) (a : A) (as : List A) :
    run step s (a :: as) = (step s a).bind fun t ↦ run step t as := rfl

theorem run_cons_eq_some {s u : S} {a : A} {as : List A} :
    run step s (a :: as) = some u ↔ ∃ t, step s a = some t ∧ run step t as = some u := by
  rw [run_cons, Option.bind_eq_some_iff]

/-- A run splits after any of its prefixes. -/
theorem run_append (s : S) (as bs : List A) :
    run step s (as ++ bs) = (run step s as).bind fun t ↦ run step t bs := by
  induction as generalizing s with
  | nil => rfl
  | cons a as ih =>
      rw [List.cons_append, run_cons, run_cons, Option.bind_assoc]
      exact congrArg _ (funext fun t ↦ ih t)

theorem run_append_eq_some {s u : S} {as bs : List A} :
    run step s (as ++ bs) = some u ↔ ∃ t, run step s as = some t ∧ run step t bs = some u := by
  rw [run_append, Option.bind_eq_some_iff]

/-- A system whose labels can always occur runs by folding. -/
theorem run_total (f : S → A → S) (s : S) (as : List A) :
    run (fun s a ↦ some (f s a)) s as = some (as.foldl f s) := by
  induction as generalizing s with
  | nil => rfl
  | cons a as ih => exact ih (f s a)

/-- Finds the end of a run by evaluating it. -/
theorem exists_run (step : S → A → Option S) (s : S) (as : List A) (p : S → Bool)
    (h : (run step s as).any p = true) :
    ∃ t, run step s as = some t ∧ p t = true := by
  obtain ⟨t, ht, hp⟩ := (Option.any_eq_true p _).mp h
  exact ⟨t, ht, hp⟩

/-! ## Invariants -/

/-- What every step that meets `C` preserves holds at the end of every run whose
steps all meet `C`. -/
theorem run_invariant_of_allSteps (hstep : ∀ s a t, I s → C s a → step s a = some t → I t)
    {s t : S} {as : List A} (hs : I s) (hC : AllSteps step C s as)
    (h : run step s as = some t) : I t := by
  induction as generalizing s with
  | nil => exact Option.some.inj h ▸ hs
  | cons a as ih =>
      obtain ⟨u, hu, hrest⟩ := run_cons_eq_some.mp h
      exact ih (hstep s a u hs hC.1 hu) (hC.2 u hu) hrest

/-- What every step from a state with `P` preserves holds at the end of every run
that visits only states with `P`, and so does `P`. -/
theorem run_invariant_of_visits (hstep : ∀ s a t, I s → P s → step s a = some t → I t)
    {s t : S} {as : List A} (hs : I s) (hP : Visits step P s as)
    (h : run step s as = some t) : I t ∧ P t := by
  induction as generalizing s with
  | nil => exact Option.some.inj h ▸ ⟨hs, hP⟩
  | cons a as ih =>
      obtain ⟨u, hu, hrest⟩ := run_cons_eq_some.mp h
      exact ih (hstep s a u hs hP.1 hu) (hP.2 u hu) hrest

/-! ## Conditions on the steps of a run -/

theorem allSteps_of_forall (h : ∀ s a, C s a) {s : S} {as : List A} : AllSteps step C s as := by
  induction as generalizing s with
  | nil => trivial
  | cons a as ih => exact ⟨h s a, fun _ _ ↦ ih⟩

/-- The steps of a part of a run are steps of the run. -/
theorem AllSteps.of_append {s : S} {as bs : List A} (h : AllSteps step C s (as ++ bs)) :
    AllSteps step C s as := by
  induction as generalizing s with
  | nil => trivial
  | cons a as ih => exact ⟨h.1, fun t ht ↦ ih (h.2 t ht)⟩

/-- What every step that meets `C` preserves, and what a step that meets `C` from a
state with it has, all steps of a run have whose steps all meet `C`. -/
theorem AllSteps.of_invariant {D : S → A → Prop}
    (hI : ∀ s a t, I s → C s a → step s a = some t → I t) (hD : ∀ s a, I s → C s a → D s a)
    {s : S} {as : List A} (hs : I s) (h : AllSteps step C s as) : AllSteps step D s as := by
  induction as generalizing s with
  | nil => trivial
  | cons a as ih =>
      exact ⟨hD s a hs h.1, fun t ht ↦ ih (hI s a t hs h.1 ht) (h.2 t ht)⟩

theorem Visits.head {s : S} {as : List A} (h : Visits step P s as) : P s := by
  cases as with
  | nil => exact h
  | cons a as => exact h.1

theorem Visits.last {s t : S} {as : List A} (h : Visits step P s as)
    (hrun : run step s as = some t) : P t :=
  (run_invariant_of_visits (I := fun _ ↦ True) (fun _ _ _ _ _ _ ↦ trivial) trivial h hrun).2

/-- The steps of a run that visits only states with `P` lead from such states to such
states. -/
theorem Visits.allSteps {s : S} {as : List A} (h : Visits step P s as) :
    AllSteps step (fun s a ↦ P s ∧ ∀ t, step s a = some t → P t) s as := by
  induction as generalizing s with
  | nil => trivial
  | cons a as ih => exact ⟨⟨h.1, fun t ht ↦ (h.2 t ht).head⟩, fun t ht ↦ ih (h.2 t ht)⟩

/-- An invariant of the steps that meet `C` is met in each state of a run whose steps all
do. -/
theorem visits_of_invariant (hP : ∀ s, I s → P s)
    (hI : ∀ s a t, I s → C s a → step s a = some t → I t) {s : S} {as : List A} (hs : I s)
    (hC : AllSteps step C s as) : Visits step P s as := by
  induction as generalizing s with
  | nil => exact hP s hs
  | cons a as ih => exact ⟨hP s hs, fun t ht ↦ ih (hI s a t hs hC.1 ht) (hC.2 t ht)⟩

theorem AllSteps.and {D : S → A → Prop} {s : S} {as : List A} (hC : AllSteps step C s as)
    (hD : AllSteps step D s as) : AllSteps step (fun s a ↦ C s a ∧ D s a) s as := by
  induction as generalizing s with
  | nil => trivial
  | cons a as ih => exact ⟨⟨hC.1, hD.1⟩, fun t ht ↦ ih (hC.2 t ht) (hD.2 t ht)⟩

/-- If, in the states of an invariant `I`, a step from a state with `P` keeps
`P` exactly when it meets `C`, then a run from a state with `P` stays in `P`
exactly when all of its steps meet `C`. -/
theorem visits_iff_allSteps (hI : ∀ s a t, I s → step s a = some t → I t)
    (hP : ∀ s a t, I s → P s → step s a = some t → (P t ↔ C s a))
    {s t : S} {as : List A} (hs : I s) (hPs : P s) (h : run step s as = some t) :
    Visits step P s as ↔ AllSteps step C s as := by
  induction as generalizing s with
  | nil => exact ⟨fun _ ↦ trivial, fun _ ↦ hPs⟩
  | cons a as ih =>
      obtain ⟨u, hu, hrest⟩ := run_cons_eq_some.mp h
      have hiff := hP s a u hs hPs hu
      constructor
      · rintro ⟨-, hall⟩
        have hPu : P u := (hall u hu).head
        exact ⟨hiff.mp hPu, fun v hv ↦ Option.some.inj (hu.symm.trans hv) ▸
          (ih (hI s a u hs hu) hPu hrest).mp (hall u hu)⟩
      · rintro ⟨hC, hall⟩
        exact ⟨hPs, fun v hv ↦ Option.some.inj (hu.symm.trans hv) ▸
          (ih (hI s a u hs hu) (hiff.mpr hC) hrest).mpr (hall u hu)⟩

/-- A condition on labels alone. -/
theorem allSteps_of_mem {p : A → Prop} {s : S} {as : List A} (h : ∀ a ∈ as, p a) :
    AllSteps step (fun _ a ↦ p a) s as := by
  induction as generalizing s with
  | nil => trivial
  | cons a as ih =>
      obtain ⟨ha, has⟩ := List.forall_mem_cons.mp h
      exact ⟨ha, fun _ _ ↦ ih has⟩

/-- If `I` implies `P`, is preserved by the steps that meet `C`, and is lost with `P` by
those that do not, then a run from a state with `I` visits only states with `P` exactly
when all of its steps meet `C`. -/
theorem visits_iff_allSteps_of_invariant (hP : ∀ s, I s → P s)
    (hI : ∀ s a t, I s → C s a → step s a = some t → I t)
    (hlost : ∀ s a t, I s → ¬ C s a → step s a = some t → ¬ P t)
    {s t : S} {as : List A} (hs : I s) (h : run step s as = some t) :
    Visits step P s as ↔ AllSteps step C s as := by
  induction as generalizing s with
  | nil => exact iff_of_true (hP s hs) trivial
  | cons a as ih =>
      obtain ⟨u, hu, hrest⟩ := run_cons_eq_some.mp h
      by_cases hC : C s a
      · have hIu := hI s a u hs hC hu
        constructor
        · rintro ⟨-, hall⟩
          exact ⟨hC, fun v hv ↦ Option.some.inj (hu.symm.trans hv) ▸
            (ih hIu hrest).mp (hall u hu)⟩
        · rintro ⟨-, hall⟩
          exact ⟨hP s hs, fun v hv ↦ Option.some.inj (hu.symm.trans hv) ▸
            (ih hIu hrest).mpr (hall u hu)⟩
      · exact iff_of_false (fun hV ↦ hlost s a u hs hC hu (hV.2 u hu).head) fun hA ↦ hC hA.1

/-! ## Outputs -/

/-- What the steps of a run put out, in order. -/
def outputs {B : Type*} (step : S → A → Option S) (out : S → A → List B) : S → List A → List B
  | _, [] => []
  | s, a :: as => out s a ++ (step s a).elim [] fun t ↦ outputs step out t as

theorem outputs_cons {B : Type*} {out : S → A → List B} {s t : S} {a : A} {as : List A}
    (h : step s a = some t) :
    outputs step out s (a :: as) = out s a ++ outputs step out t as := by
  rw [outputs, h, Option.elim_some]

theorem outputs_append {B : Type*} {out : S → A → List B} {s t : S} {as bs : List A}
    (h : run step s as = some t) :
    outputs step out s (as ++ bs) = outputs step out s as ++ outputs step out t bs := by
  induction as generalizing s with
  | nil =>
      cases h
      rfl
  | cons a as ih =>
      obtain ⟨u, hu, hrest⟩ := run_cons_eq_some.mp h
      rw [List.cons_append, outputs_cons hu, outputs_cons hu, ih hrest, List.append_assoc]

theorem outputs_nothing {B : Type*} (s : S) (as : List A) :
    outputs (B := B) step (fun _ _ ↦ []) s as = [] := by
  induction as generalizing s with
  | nil => rfl
  | cons a as ih =>
      rw [outputs, List.nil_append]
      cases step s a with
      | none => rfl
      | some t => exact ih t

/-- What goes in, `f`, comes out, `g`, in the same order, if it does so in each step; what
is still to come out is held, `r`. -/
theorem outputs_conserved {B : Type*} {f g : S → A → List B} {r : S → List B}
    (hI : ∀ s a t, I s → C s a → step s a = some t → I t)
    (hr : ∀ s a t, I s → C s a → step s a = some t → r s ++ f s a = g s a ++ r t)
    {s t : S} {as : List A} (hs : I s) (hC : AllSteps step C s as) (h : run step s as = some t) :
    r s ++ outputs step f s as = outputs step g s as ++ r t := by
  induction as generalizing s with
  | nil =>
      cases h
      rw [outputs, outputs, List.append_nil, List.nil_append]
  | cons a as ih =>
      obtain ⟨u, hu, hrest⟩ := run_cons_eq_some.mp h
      calc r s ++ outputs step f s (a :: as)
        _ = (r s ++ f s a) ++ outputs step f u as := by
          rw [outputs_cons hu, List.append_assoc]
        _ = g s a ++ (r u ++ outputs step f u as) := by
          rw [hr s a u hs hC.1 hu, List.append_assoc]
        _ = g s a ++ (outputs step g u as ++ r t) := by
          rw [ih (hI s a u hs hC.1 hu) (hC.2 u hu) hrest]
        _ = outputs step g s (a :: as) ++ r t := by
          rw [outputs_cons hu, List.append_assoc]

/-- What every step that meets `C` preserves, of the state and of what was put out on the
way to it, holds at the end of every run whose steps all meet `C`. -/
theorem run_outputs_invariant {B : Type*} {out : S → A → List B} {P : S → List B → Prop}
    (hstep : ∀ s a t bs, P s bs → C s a → step s a = some t → P t (bs ++ out s a))
    {s t : S} {as : List A} {l : List B} (hs : P s l) (hC : AllSteps step C s as)
    (h : run step s as = some t) : P t (l ++ outputs step out s as) := by
  induction as generalizing s l with
  | nil =>
      cases h
      rwa [outputs, List.append_nil]
  | cons a as ih =>
      obtain ⟨u, hu, hrest⟩ := run_cons_eq_some.mp h
      rw [outputs_cons hu, ← List.append_assoc]
      exact ih (hstep s a u l hs hC.1 hu) (hC.2 u hu) hrest

/-! ## Potentials -/

/-- If each step that `p` counts takes one from the potential `m`, and only the steps that
`q` counts add one, then along a run the former are bounded by the potential and the
latter. -/
theorem countP_add_potential_le {m : S → Nat} {p q : A → Bool}
    (hI : ∀ s a t, I s → C s a → step s a = some t → I t)
    (hm : ∀ s a t, I s → C s a → step s a = some t →
      (if p a then 1 else 0) + m t ≤ m s + if q a then 1 else 0)
    {s t : S} {as : List A} (hs : I s) (hC : AllSteps step C s as) (h : run step s as = some t) :
    as.countP p + m t ≤ m s + as.countP q := by
  induction as generalizing s with
  | nil =>
      cases h
      exact Nat.le_of_eq (Nat.add_comm _ _)
  | cons a as ih =>
      obtain ⟨u, hu, hrest⟩ := run_cons_eq_some.mp h
      have hstep := hm s a u hs hC.1 hu
      have htail := ih (hI s a u hs hC.1 hu) (hC.2 u hu) hrest
      rw [List.countP_cons, List.countP_cons]
      omega

/-! ## Restriction -/

/-- The system whose steps all meet the condition `C`. -/
def restrict (step : S → A → Option S) (C : S → A → Prop) [∀ s a, Decidable (C s a)] :
    S → A → Option S :=
  fun s a ↦ if C s a then step s a else none

theorem restrict_eq_some [∀ s a, Decidable (C s a)] {s t : S} {a : A} :
    restrict step C s a = some t ↔ C s a ∧ step s a = some t := by
  rw [restrict, Option.ite_none_right_eq_some]

/-! ## Systems that can go down -/

/-- The system whose steps may end it: once an error is reached nothing more
happens. -/
def liftAbort (step : S → A → Option (Except E S)) : Except E S → A → Option (Except E S)
  | .ok s, a => step s a
  | .error _, _ => none

/-- `I` holds and the system has not gone down. -/
def Alive (I : S → Prop) : Except E S → Prop
  | .ok s => I s
  | .error _ => False

/-- `I` holds unless the system has gone down. -/
def UnlessDown (I : S → Prop) : Except E S → Prop
  | .ok s => I s
  | .error _ => True

/-- A condition on the steps of a system that is still up. -/
def WhileAlive (C : S → A → Prop) : Except E S → A → Prop
  | .ok s, a => C s a
  | .error _, _ => True

instance WhileAlive.decidable {C : S → A → Prop} [∀ s a, Decidable (C s a)] :
    ∀ (r : Except E S) a, Decidable (WhileAlive C r a)
  | .ok s, a => inferInstanceAs (Decidable (C s a))
  | .error _, _ => isTrue trivial

/-- The first step of a system that is up. -/
theorem run_ok_cons_eq_some {step : S → A → Option (Except E S)} {s : S} {a : A} {as : List A}
    {r : Except E S} :
    run (liftAbort step) (.ok s) (a :: as) = some r ↔
      ∃ r', step s a = some r' ∧ run (liftAbort step) r' as = some r := run_cons_eq_some

theorem run_error_eq_some {step : S → A → Option (Except E S)} {e : E} {as : List A}
    {r : Except E S} :
    run (liftAbort step) (.error e) as = some r ↔ as = [] ∧ r = .error e := by
  cases as with
  | nil => exact ⟨fun h ↦ ⟨rfl, (Option.some.inj h).symm⟩, fun h ↦ congrArg some h.2.symm⟩
  | cons a as => exact ⟨fun h ↦ (by cases h), fun h ↦ (by cases h.1)⟩

theorem run_error_ne {step : S → A → Option (Except E S)} {e : E} {as : List A} {t : S} :
    run (liftAbort step) (.error e) as ≠ some (.ok t) :=
  fun h ↦ by cases (run_error_eq_some.mp h).2

/-- A run that does not go down is up before and after each of its steps. -/
theorem exists_step_of_run_ok {step : S → A → Option (Except E S)} {s t : S} {as bs : List A}
    {a : A} (h : run (liftAbort step) (.ok s) (as ++ a :: bs) = some (.ok t)) :
    ∃ s₁ s₂, run (liftAbort step) (.ok s) as = some (.ok s₁) ∧ step s₁ a = some (.ok s₂) := by
  obtain ⟨r₁, h₁, h⟩ := run_append_eq_some.mp h
  obtain ⟨r₂, h₂, h⟩ := run_cons_eq_some.mp h
  cases r₁ with
  | error e => cases h₂
  | ok s₁ =>
      cases r₂ with
      | error e => exact absurd h run_error_ne
      | ok s₂ => exact ⟨s₁, s₂, h₁, h₂⟩

/-- Finds the end of a run that does not go down by evaluating it. -/
theorem exists_run_ok (step : S → A → Option (Except E S)) (r : Except E S) (as : List A)
    (p : S → Bool) (h : (run (liftAbort step) r as).any (fun r ↦ r.toOption.any p) = true) :
    ∃ t, run (liftAbort step) r as = some (.ok t) ∧ p t = true := by
  obtain ⟨r, hr, hp⟩ := exists_run _ _ _ _ h
  cases r with
  | error e => cases hp
  | ok t => exact ⟨t, hr, hp⟩

/-- Finds the end of a run that goes down by evaluating it. -/
theorem exists_run_error (step : S → A → Option (Except E S)) (s : S) (as : List A) (p : E → Bool)
    (h : (run (liftAbort step) (.ok s) as).any
      (fun | .ok _ => false | .error e => p e) = true) :
    ∃ e, run (liftAbort step) (.ok s) as = some (.error e) ∧ p e = true := by
  obtain ⟨r, hr, hp⟩ := exists_run _ _ _ _ h
  cases r with
  | error e => exact ⟨e, hr, hp⟩
  | ok t => cases hp

/-- If no step from a state with `I` that meets `C` brings the system down, and
each leads to a state with `I`, then no run whose steps all meet `C` does. -/
theorem run_alive_of_allSteps {step : S → A → Option (Except E S)}
    (hstep : ∀ s a r, I s → C s a → step s a = some r → ∃ t, r = .ok t ∧ I t)
    {s : S} {as : List A} {r : Except E S} (hs : I s)
    (hC : AllSteps (liftAbort step) (WhileAlive C) (.ok s) as)
    (h : run (liftAbort step) (.ok s) as = some r) : ∃ t, r = .ok t ∧ I t := by
  have halive : Alive I r := by
    refine run_invariant_of_allSteps (I := Alive I) (s := .ok s) ?_ hs hC h
    intro r a r' hr hC hra
    cases r with
    | error e => exact hr.elim
    | ok s =>
        obtain ⟨t, rfl, ht⟩ := hstep s a r' hr hC hra
        exact ht
  cases r with
  | error e => exact halive.elim
  | ok t => exact ⟨t, rfl, halive⟩

/-- The same for the steps of a system that is still up: nothing need hold of the
step that brings it down. -/
theorem AllSteps.of_invariant_whileAlive {step : S → A → Option (Except E S)}
    {D : S → A → Prop} (hI : ∀ s a t, I s → C s a → step s a = some (.ok t) → I t)
    (hD : ∀ s a, I s → C s a → D s a) {r : Except E S} {as : List A} (hr : UnlessDown I r)
    (h : AllSteps (liftAbort step) (WhileAlive C) r as) :
    AllSteps (liftAbort step) (WhileAlive D) r as := by
  refine h.of_invariant (I := UnlessDown I) ?_ ?_ hr
  · intro r a r' hr hC hstep
    cases r with
    | error e => cases hstep
    | ok s =>
        cases r' with
        | error e => trivial
        | ok t => exact hI s a t hr hC hstep
  · intro r a hr hC
    cases r with
    | error e => trivial
    | ok s => exact hD s a hr hC

/-- If no step from a state with `I` brings the system down, and each leads to a
state with `I`, then no run does. -/
theorem run_alive {step : S → A → Option (Except E S)}
    (hstep : ∀ s a r, I s → step s a = some r → ∃ t, r = .ok t ∧ I t)
    {s : S} {as : List A} {r : Except E S} (hs : I s)
    (h : run (liftAbort step) (.ok s) as = some r) : ∃ t, r = .ok t ∧ I t :=
  run_alive_of_allSteps (C := fun _ _ ↦ True) (fun s a r hs _ ↦ hstep s a r hs) hs
    (allSteps_of_forall fun r _ ↦ by cases r <;> trivial) h

/-- What every step preserves that meets `C` and does not bring the system down holds at
the end of every run that does not, if its steps all meet `C`. -/
theorem run_ok_invariant_of_allSteps {step : S → A → Option (Except E S)}
    (hstep : ∀ s a t, I s → C s a → step s a = some (.ok t) → I t) {s t : S} {as : List A}
    (hs : I s) (hC : AllSteps (liftAbort step) (WhileAlive C) (.ok s) as)
    (h : run (liftAbort step) (.ok s) as = some (.ok t)) : I t := by
  refine run_invariant_of_allSteps (I := UnlessDown I) (s := .ok s) ?_ hs hC h
  intro r a r' hr hC hra
  cases r with
  | error e => cases hra
  | ok s =>
      cases r' with
      | error e => trivial
      | ok t => exact hstep s a t hr hC hra

/-- What every step preserves that does not bring the system down holds at the end of
every run that does not. -/
theorem run_ok_invariant {step : S → A → Option (Except E S)}
    (hstep : ∀ s a t, I s → step s a = some (.ok t) → I t) {s t : S} {as : List A} (hs : I s)
    (h : run (liftAbort step) (.ok s) as = some (.ok t)) : I t :=
  run_ok_invariant_of_allSteps (C := fun _ _ ↦ True) (fun s a t hs _ ↦ hstep s a t hs) hs
    (allSteps_of_forall fun r _ ↦ by cases r <;> trivial) h

/-! ### Outputs of a system that is up -/

/-- What the steps of a system put out as long as it is up, in order. -/
def emitted {B : Type*} (step : S → A → Option (Except E S)) (out : S → A → List B) :
    Except E S → List A → List B :=
  outputs (liftAbort step) fun r a ↦
    match r with
    | .ok s => out s a
    | .error _ => []

/-- What every step preserves that does not bring the system down, of the state and of
what was put out on the way to it. -/
theorem run_emitted_invariant {B : Type*} {step : S → A → Option (Except E S)}
    {out : S → A → List B} {P : S → List B → Prop}
    (hstep : ∀ s a t bs, P s bs → step s a = some (.ok t) → P t (bs ++ out s a)) {s t : S}
    {as : List A} (hs : P s []) (h : run (liftAbort step) (.ok s) as = some (.ok t)) :
    P t (emitted step out (.ok s) as) := by
  refine run_outputs_invariant (P := fun r bs ↦ UnlessDown (fun s ↦ P s bs) r)
    (C := fun _ _ ↦ True) (s := .ok s) (l := []) ?_ hs (allSteps_of_forall fun _ _ ↦ trivial) h
  intro r a r' bs hr _ hra
  cases r with
  | error e => cases hra
  | ok s =>
      cases r' with
      | error e => trivial
      | ok t => exact hstep s a t bs hr hra

/-- If each step that `q` counts puts out something that `p` counts, there is at least as much
of the latter. -/
theorem countP_le_countP_emitted {B : Type*} {step : S → A → Option (Except E S)}
    {out : S → A → List B} {p : B → Bool} {q : A → Bool}
    (hout : ∀ s a, q a = true → 0 < (out s a).countP p) {s t : S} {as : List A}
    (h : run (liftAbort step) (.ok s) as = some (.ok t)) :
    as.countP q ≤ (emitted step out (.ok s) as).countP p := by
  induction as generalizing s with
  | nil => exact Nat.zero_le _
  | cons a as ih =>
      obtain ⟨r, hr, hrest⟩ := run_cons_eq_some.mp h
      cases r with
      | error e => exact absurd hrest run_error_ne
      | ok u =>
          have hemitted : emitted step out (.ok s) (a :: as) =
              out s a ++ emitted step out (.ok u) as := outputs_cons hr
          have htail := ih hrest
          rw [hemitted, List.countP_append, List.countP_cons]
          split
          · rename_i hq
            have := hout s a hq
            omega
          · omega

/-! ## Refinement -/

/-- Every step of one system is matched by the step of another under the same
label, up to the relation `R`. -/
def Simulates {T : Type*} (step : S → A → Option S) (step' : T → A → Option T)
    (R : S → T → Prop) : Prop :=
  ∀ s t a s', R s t → step s a = some s' → ∃ t', step' t a = some t' ∧ R s' t'

/-- A simulation carries runs over. -/
theorem Simulates.run {T : Type*} {step' : T → A → Option T} {R : S → T → Prop}
    (hsim : Simulates step step' R) {s s' : S} {t : T} {as : List A} (hR : R s t)
    (h : run step s as = some s') : ∃ t', Transition.run step' t as = some t' ∧ R s' t' := by
  induction as generalizing s t with
  | nil => exact ⟨t, rfl, Option.some.inj h ▸ hR⟩
  | cons a as ih =>
      obtain ⟨u, hu, hrest⟩ := run_cons_eq_some.mp h
      obtain ⟨t₁, ht₁, hR₁⟩ := hsim s t a u hR hu
      obtain ⟨t', ht', hR'⟩ := ih hR₁ hrest
      exact ⟨t', run_cons_eq_some.mpr ⟨t₁, ht₁, ht'⟩, hR'⟩

/-- If each step of one system is matched, up to `R`, by a few steps of another, then what
its runs put out are runs of the other. -/
theorem exists_run_emitted {T B : Type*} {step : S → A → Option (Except E S)}
    {step' : T → B → Option T} {out : S → A → List B} {R : S → T → Prop}
    (hstep : ∀ s a s' t, R s t → step s a = some (.ok s') →
      ∃ t', Transition.run step' t (out s a) = some t' ∧ R s' t')
    {s s' : S} {t : T} {as : List A} (hR : R s t)
    (h : Transition.run (liftAbort step) (.ok s) as = some (.ok s')) :
    ∃ t', Transition.run step' t (emitted step out (.ok s) as) = some t' ∧ R s' t' := by
  refine run_emitted_invariant
    (P := fun s bs ↦ ∃ t', Transition.run step' t bs = some t' ∧ R s t') ?_ ⟨t, rfl, hR⟩ h
  rintro s a s' bs ⟨t₁, hrun, hR₁⟩ hsa
  obtain ⟨t', hrun', hR'⟩ := hstep s a s' t₁ hR₁ hsa
  exact ⟨t', run_append_eq_some.mpr ⟨t₁, hrun, hrun'⟩, hR'⟩

end Transition
