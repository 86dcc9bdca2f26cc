import Mathlib.Data.List.Basic

/-!
# A queue that is worked off in batches

Anyone puts items in line; the one who works them off takes all that are pending
at once, works through them in order, and lets go of them together when the last
one is done.  So an item is *waiting* until its turn has come, and *held* until the
end of the batch it is in.

In terms of waiting the queue is first in, first out (`waiting_push`,
`waiting_swap`, `waiting_next`, `waiting_finish`).  In terms of holding, an item
can stand in for others: if nothing with `p` is put in line once `x` has been
taken, then `x` is held whenever something with `p` is waiting (`Covers`).
-/

universe u

/-- The batch that is being worked off, in two parts, and what is put in line
meanwhile. -/
structure BatchQueue (α : Type u) where
  done : List α
  rest : List α
  pending : List α
deriving DecidableEq, Repr

namespace BatchQueue

variable {α : Type u} {q q' : BatchQueue α} {x y : α} {p : α → Prop}

def empty : BatchQueue α := ⟨[], [], []⟩

/-- There is no batch. -/
def isIdle (q : BatchQueue α) : Bool := q.done.isEmpty && q.rest.isEmpty

/-- An item is put in line. -/
def push (q : BatchQueue α) (x : α) : BatchQueue α := { q with pending := q.pending ++ [x] }

/-- All pending items are taken. -/
def swap (q : BatchQueue α) : Option (BatchQueue α) :=
  if q.isIdle then some ⟨[], q.pending, []⟩ else none

/-- The turn of the next item of the batch. -/
def next (q : BatchQueue α) : Option (α × BatchQueue α) :=
  match q.rest with
  | [] => none
  | x :: rest => some (x, { q with done := q.done ++ [x], rest })

/-- The batch is let go of. -/
def finish (q : BatchQueue α) : Option (BatchQueue α) :=
  if q.rest.isEmpty then some { q with done := [] } else none

/-- The items whose turn has not come, in order. -/
def waiting (q : BatchQueue α) : List α := q.rest ++ q.pending

/-- The items that have not been let go of. -/
def held (q : BatchQueue α) : List α := q.done ++ q.rest ++ q.pending

theorem swap_eq_some : q.swap = some q' ↔
    q.done = [] ∧ q.rest = [] ∧ q' = ⟨[], q.pending, []⟩ := by
  rw [swap, isIdle, Option.ite_none_right_eq_some, Bool.and_eq_true, List.isEmpty_iff,
    List.isEmpty_iff, Option.some.injEq, and_assoc, eq_comm (b := q')]

theorem next_eq_some : q.next = some (x, q') ↔
    q.rest = x :: q'.rest ∧ q'.done = q.done ++ [x] ∧ q'.pending = q.pending := by
  obtain ⟨done, rest, pending⟩ := q
  obtain ⟨done', rest', pending'⟩ := q'
  cases rest with
  | nil => simp [next]
  | cons y ys =>
      simp only [next, Option.some.injEq, Prod.mk.injEq, mk.injEq, List.cons.injEq, and_assoc]
      constructor
      · rintro ⟨rfl, rfl, rfl, rfl⟩
        exact ⟨rfl, rfl, rfl, rfl⟩
      · rintro ⟨rfl, rfl, rfl, rfl⟩
        exact ⟨rfl, rfl, rfl, rfl⟩

theorem finish_eq_some : q.finish = some q' ↔ q.rest = [] ∧ q' = { q with done := [] } := by
  rw [finish, Option.ite_none_right_eq_some, List.isEmpty_iff, Option.some.injEq, eq_comm (b := q')]

/-! ## In line -/

@[simp] theorem waiting_push : (q.push x).waiting = q.waiting ++ [x] := by
  simp [waiting, push]

theorem waiting_swap (h : q.swap = some q') : q'.waiting = q.waiting := by
  obtain ⟨-, hrest, rfl⟩ := swap_eq_some.mp h
  simp [waiting, hrest]

theorem waiting_next (h : q.next = some (x, q')) : q.waiting = x :: q'.waiting := by
  obtain ⟨hrest, -, hpending⟩ := next_eq_some.mp h
  rw [waiting, hrest, waiting, hpending, List.cons_append]

theorem waiting_finish (h : q.finish = some q') : q'.waiting = q.waiting := by
  obtain ⟨-, rfl⟩ := finish_eq_some.mp h
  rfl

/-! ## Cover -/

/-- As long as an item with `p` is in line, `x` is held: it is in line behind it,
or in the same batch. -/
structure Covers (q : BatchQueue α) (x : α) (p : α → Prop) : Prop where
  pending : ∀ y ∈ q.pending, p y → x ∈ q.pending
  rest : ∀ y ∈ q.rest, p y → x ∈ q.held

theorem Covers.mem_held (h : q.Covers x p) (hy : y ∈ q.waiting) (hp : p y) : x ∈ q.held := by
  rcases List.mem_append.mp hy with hy | hy
  · exact h.rest y hy hp
  · exact List.mem_append_right _ (h.pending y hy hp)

/-- An item that is in line itself covers everything. -/
theorem covers_of_mem_pending (h : x ∈ q.pending) : q.Covers x p where
  pending _ _ _ := h
  rest _ _ _ := List.mem_append_right _ h

/-- Whatever is put in line behind an item that has been taken must not have `p`. -/
theorem Covers.push (h : q.Covers x p) (hp : p y → x ∈ q.pending) : (q.push y).Covers x p where
  pending z hz hpz := by
    apply List.mem_append_left
    rcases List.mem_append.mp hz with hz | hz
    · exact h.pending z hz hpz
    · rw [List.mem_singleton.mp hz] at hpz
      exact hp hpz
  rest z hz hpz := by
    rw [held, BatchQueue.push, ← List.append_assoc]
    exact List.mem_append_left _ (h.rest z hz hpz)

theorem Covers.swap (h : q.Covers x p) (hswap : q.swap = some q') : q'.Covers x p := by
  obtain ⟨-, -, rfl⟩ := swap_eq_some.mp hswap
  refine ⟨fun y hy ↦ (by cases hy), ?_⟩
  intro y hy hp
  simpa [held] using h.pending y hy hp

theorem Covers.next (h : q.Covers x p) (hnext : q.next = some (y, q')) : q'.Covers x p := by
  obtain ⟨hrest, hdone, hpending⟩ := next_eq_some.mp hnext
  refine ⟨fun z hz hp ↦ ?_, fun z hz hp ↦ ?_⟩
  · rw [hpending] at hz ⊢
    exact h.pending z hz hp
  · have hx := h.rest z (by rw [hrest]; exact List.mem_cons_of_mem _ hz) hp
    rw [held, hrest, List.append_cons] at hx
    rwa [held, hdone, hpending]

theorem Covers.finish (h : q.Covers x p) (hfinish : q.finish = some q') : q'.Covers x p := by
  obtain ⟨hrest, rfl⟩ := finish_eq_some.mp hfinish
  refine ⟨h.pending, ?_⟩
  intro y hy
  rw [hrest] at hy
  cases hy

end BatchQueue
