import Mathlib.Order.MinMax
import Mathlib.Order.Lex

/-!
# Ordered sets

Finite sets of a linear order, kept as the increasing list of their elements:
insertion, the least element, and the split at a lower bound.
-/

universe u

/-- A finite set, as the increasing list of its elements. -/
structure OrderedSet (α : Type u) [LinearOrder α] where
  elems : List α
  sorted : elems.Pairwise (· < ·)
deriving DecidableEq

namespace OrderedSet

variable {α : Type u} [LinearOrder α]

/-- The set with no elements. -/
def empty : OrderedSet α := ⟨[], .nil⟩

/-- Inserts into an increasing list, unless the element is there already. -/
def insertList (x : α) : List α → List α
  | [] => [x]
  | y :: ys => if x < y then x :: y :: ys else if x = y then y :: ys else y :: insertList x ys

@[simp] theorem mem_insertList {x y : α} {xs : List α} : y ∈ insertList x xs ↔ y = x ∨ y ∈ xs := by
  induction xs with
  | nil => rw [insertList, List.mem_singleton, or_iff_left List.not_mem_nil]
  | cons z zs ih =>
      rw [insertList]
      split
      · rw [List.mem_cons]
      · split
        · rename_i heq
          rw [heq, List.mem_cons, or_self_left]
        · rw [List.mem_cons, ih, List.mem_cons, or_left_comm]

theorem pairwise_insertList {x : α} {xs : List α} (h : xs.Pairwise (· < ·)) :
    (insertList x xs).Pairwise (· < ·) := by
  induction xs with
  | nil => exact List.pairwise_singleton _ _
  | cons z zs ih =>
      obtain ⟨hz, hzs⟩ := List.pairwise_cons.mp h
      rw [insertList]
      split
      · rename_i hlt
        refine List.pairwise_cons.mpr ⟨?_, h⟩
        intro y hy
        rcases List.mem_cons.mp hy with rfl | hy
        · exact hlt
        · exact lt_trans hlt (hz y hy)
      · split
        · exact h
        · rename_i hnlt hne
          refine List.pairwise_cons.mpr ⟨?_, ih hzs⟩
          intro y hy
          rcases mem_insertList.mp hy with rfl | hy
          · exact lt_of_le_of_ne (not_lt.mp hnlt) (Ne.symm hne)
          · exact hz y hy

/-- Insertion. -/
def emplace (s : OrderedSet α) (x : α) : OrderedSet α :=
  ⟨insertList x s.elems, pairwise_insertList s.sorted⟩

/-- The least element. -/
def first (s : OrderedSet α) : Option α := s.elems.head?

/-- The elements before a lower bound. -/
def before (s : OrderedSet α) (bound : α) : List α := s.elems.takeWhile (· < bound)

/-- The set of the elements from a lower bound on. -/
def eraseBefore (s : OrderedSet α) (bound : α) : OrderedSet α :=
  ⟨s.elems.dropWhile (· < bound), s.sorted.sublist (List.dropWhile_sublist _)⟩

/-- The least element after an insertion. -/
theorem first_emplace (s : OrderedSet α) (x : α) :
    (s.emplace x).first = some (s.first.elim x (min x)) := by
  obtain ⟨xs, h⟩ := s
  cases xs with
  | nil => rfl
  | cons y ys =>
      simp only [emplace, first, insertList, List.head?_cons, Option.elim_some]
      split
      · rename_i hlt
        rw [min_eq_left hlt.le, List.head?_cons]
      · rename_i hnlt
        rw [min_eq_right (not_lt.mp hnlt)]
        split <;> rfl

/-- No element is less than the first. -/
theorem exists_first_le {s : OrderedSet α} {x : α} (h : x ∈ s.elems) :
    ∃ y, s.first = some y ∧ y ≤ x := by
  obtain ⟨xs, hxs⟩ := s
  cases xs with
  | nil => cases h
  | cons y ys =>
      refine ⟨y, rfl, ?_⟩
      rcases List.mem_cons.mp h with rfl | hmem
      · exact le_refl x
      · exact ((List.pairwise_cons.mp hxs).1 x hmem).le

/-- Inserting an element that is not there adds it. -/
theorem elems_emplace_perm {s : OrderedSet α} {x : α} (h : x ∉ s.elems) :
    (s.emplace x).elems.Perm (x :: s.elems) := by
  obtain ⟨xs, hxs⟩ := s
  change x ∉ xs at h
  change (insertList x xs).Perm (x :: xs)
  clear hxs
  induction xs with
  | nil => exact .refl _
  | cons y ys ih =>
      obtain ⟨hne, hys⟩ := List.ne_and_not_mem_of_not_mem_cons h
      rw [insertList]
      split
      · exact .refl _
      · exact ((ih hys).cons y).trans (.swap x y ys)

@[simp] theorem mem_emplace {s : OrderedSet α} {x y : α} :
    y ∈ (s.emplace x).elems ↔ y = x ∨ y ∈ s.elems :=
  mem_insertList

/-- A lower bound splits the set in two. -/
@[simp] theorem before_append_eraseBefore (s : OrderedSet α) (bound : α) :
    s.before bound ++ (s.eraseBefore bound).elems = s.elems :=
  List.takeWhile_append_dropWhile

/-- Before a lower bound are all the lesser elements, in order. -/
theorem before_eq_filter (s : OrderedSet α) (bound : α) :
    s.before bound = s.elems.filter (· < bound) := by
  obtain ⟨xs, h⟩ := s
  change xs.takeWhile (· < bound) = _
  induction xs with
  | nil => rfl
  | cons x xs ih =>
      obtain ⟨hx, hxs⟩ := List.pairwise_cons.mp h
      by_cases hlt : x < bound
      · rw [List.takeWhile_cons_of_pos (by simpa using hlt),
          List.filter_cons_of_pos (by simpa using hlt), ih hxs]
      · rw [List.takeWhile_cons_of_neg (by simpa using hlt),
          List.filter_cons_of_neg (by simpa using hlt), eq_comm, List.filter_eq_nil_iff]
        intro y hy hlt'
        exact hlt ((hx y hy).trans (of_decide_eq_true hlt'))

end OrderedSet
