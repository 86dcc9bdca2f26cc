import Mathlib.Data.List.Infix
import Mathlib.Data.List.TakeWhile

/-!
# Searching in lists

The position of the first occurrence of one list in another, of the first element
that is not a given one, and of the last that is: the searches of
`std::string_view`, over any type of characters.

What a first occurrence says about the text before it is in `find_pair_iff`, for
patterns of two different characters.  Such a pattern cannot overlap itself, so the
text before its first occurrence is any text without one.
-/

namespace Search

variable {α : Type*} [DecidableEq α]

/-- The position of the first occurrence of `pat`. -/
def find (pat : List α) : List α → Option Nat
  | [] => if pat = [] then some 0 else none
  | x :: xs => if pat <+: x :: xs then some 0 else (find pat xs).map (· + 1)

/-- The position, from `pos` on, of the first element other than `a`. -/
def findFirstNotOf (a : α) (l : List α) (pos : Nat) : Option Nat :=
  ((l.drop pos).findIdx? (· ≠ a)).map (pos + ·)

/-- The position of the last occurrence of `a`. -/
def findLastOf (a : α) (l : List α) : Option Nat :=
  (l.reverse.findIdx? (· = a)).map (l.length - 1 - ·)

/-! ## First occurrences -/

/-- A first occurrence lies within the text. -/
theorem find_add_length_le {pat l : List α} {n : Nat} (h : find pat l = some n) :
    n + pat.length ≤ l.length := by
  induction l generalizing n with
  | nil =>
      rw [find, Option.ite_none_right_eq_some] at h
      obtain ⟨rfl, hn⟩ := h
      cases hn
      exact Nat.le_refl _
  | cons x xs ih =>
      rw [find] at h
      split at h
      · rename_i hpre
        cases h
        rw [Nat.zero_add]
        exact hpre.length_le
      · obtain ⟨m, hm, rfl⟩ := Option.map_eq_some_iff.mp h
        have := ih hm
        rw [List.length_cons]
        omega

/-- A pattern does not begin in text without its first character. -/
theorem find_append_of_not_mem {a : α} {pat text : List α} (h : a ∉ text) (l : List α) :
    find (a :: pat) (text ++ l) = (find (a :: pat) l).map (text.length + ·) := by
  induction text with
  | nil =>
      rw [List.nil_append, List.length_nil, funext Nat.zero_add]
      exact Option.map_id'.symm
  | cons x xs ih =>
      obtain ⟨hx, hxs⟩ := not_or.mp (mt List.mem_cons.mpr h)
      have hpre : ¬ a :: pat <+: x :: (xs ++ l) := fun hpre ↦
        hx (List.cons_prefix_cons.mp hpre).1
      rw [List.cons_append, find, if_neg hpre, ih hxs, Option.map_map, List.length_cons]
      refine congrArg (Option.map · _) (funext fun n ↦ ?_)
      simp only [Function.comp_apply]
      omega

/-- Behind text without it, a pattern of two different characters is found. -/
theorem find_pair {a b : α} (hab : a ≠ b) {line : List α} (h : ¬ [a, b] <:+: line)
    (rest : List α) : find [a, b] (line ++ a :: b :: rest) = some line.length := by
  induction line with
  | nil => exact if_pos ⟨rest, rfl⟩
  | cons x xs ih =>
      obtain ⟨hpre, hxs⟩ := not_or.mp (mt List.infix_cons_iff.mpr h)
      rw [List.cons_append, find, if_neg, ih hxs, Option.map_some, List.length_cons]
      intro hpre'
      obtain ⟨rfl, hnext⟩ := List.cons_prefix_cons.mp hpre'
      cases xs with
      | nil => exact hab (List.cons_prefix_cons.mp hnext).1.symm
      | cons y ys =>
          obtain ⟨rfl, -⟩ := List.cons_prefix_cons.mp hnext
          exact hpre ⟨ys, rfl⟩

/-- The text is cut in two by the first occurrence of a pattern of two different
characters, the first part being free of it. -/
theorem find_pair_iff {a b : α} (hab : a ≠ b) {l : List α} {n : Nat} :
    find [a, b] l = some n ↔
      ∃ line rest, l = line ++ a :: b :: rest ∧ ¬ [a, b] <:+: line ∧ line.length = n := by
  constructor
  · intro h
    induction l generalizing n with
    | nil => cases h
    | cons x xs ih =>
        rw [find] at h
        split at h
        · rename_i hpre
          cases h
          obtain ⟨rest, hrest⟩ := hpre
          exact ⟨[], rest, hrest.symm, by simp, rfl⟩
        · rename_i hpre
          obtain ⟨m, hm, rfl⟩ := Option.map_eq_some_iff.mp h
          obtain ⟨line, rest, rfl, hline, rfl⟩ := ih hm
          refine ⟨x :: line, rest, rfl, ?_, rfl⟩
          intro hin
          rcases List.infix_cons_iff.mp hin with hpre' | hin
          · exact hpre (List.prefix_append_of_prefix hpre')
          · exact hline hin
  · rintro ⟨line, rest, rfl, hline, rfl⟩
    exact find_pair hab hline rest

/-- Text free of a character up to its first occurrence. -/
theorem find_singleton_iff {a : α} {l : List α} {n : Nat} :
    find [a] l = some n ↔ ∃ line rest, l = line ++ a :: rest ∧ a ∉ line ∧ line.length = n := by
  induction l generalizing n with
  | nil => exact iff_of_false (by rw [find, if_neg (by simp)]; simp) (by simp)
  | cons x xs ih =>
      rw [find]
      split
      · rename_i hpre
        obtain ⟨rfl, -⟩ := List.cons_prefix_cons.mp hpre
        refine ⟨fun h ↦ ⟨[], xs, rfl, by simp, Option.some.inj h⟩, ?_⟩
        rintro ⟨line, rest, hl, hline, rfl⟩
        cases line with
        | nil => rfl
        | cons y ys =>
            cases hl
            exact absurd List.mem_cons_self hline
      · rename_i hpre
        rw [Option.map_eq_some_iff]
        constructor
        · rintro ⟨m, hm, rfl⟩
          obtain ⟨line, rest, rfl, hline, rfl⟩ := ih.mp hm
          refine ⟨x :: line, rest, rfl, ?_, rfl⟩
          rintro (_ | ⟨_, hmem⟩)
          · exact hpre ⟨_, rfl⟩
          · exact hline hmem
        · rintro ⟨line, rest, hl, hline, rfl⟩
          cases line with
          | nil =>
              cases hl
              exact absurd ⟨_, rfl⟩ hpre
          | cons y ys =>
              cases hl
              exact
                ⟨_, ih.mpr ⟨ys, rest, rfl, fun hm ↦ hline (List.mem_cons_of_mem _ hm), rfl⟩, rfl⟩

/-- Nothing is found exactly where the character does not occur. -/
theorem find_singleton_eq_none_iff {a : α} {l : List α} : find [a] l = none ↔ a ∉ l := by
  constructor
  · intro hnone hmem
    obtain ⟨line, rest, rfl, hline⟩ := List.eq_append_cons_of_mem hmem
    rw [find_singleton_iff.mpr ⟨line, rest, rfl, hline, rfl⟩] at hnone
    cases hnone
  · intro hnot
    rw [Option.eq_none_iff_forall_ne_some]
    intro n hn
    obtain ⟨line, rest, rfl, -⟩ := find_singleton_iff.mp hn
    exact hnot (List.mem_append_right _ List.mem_cons_self)

/-- The text before the first occurrence of a character, all of it if there is none. -/
theorem elim_find_singleton (a : α) (l : List α) :
    (find [a] l).elim l l.take = l.takeWhile (· ≠ a) := by
  cases hfind : find [a] l with
  | none =>
      refine (List.takeWhile_eq_self_iff.mpr ?_).symm
      intro x hx
      exact decide_eq_true fun heq ↦ find_singleton_eq_none_iff.mp hfind (heq ▸ hx)
  | some n =>
      obtain ⟨line, rest, rfl, hline, rfl⟩ := find_singleton_iff.mp hfind
      have hall : ∀ x ∈ line, decide (x ≠ a) = true := fun x hx ↦
        decide_eq_true fun heq ↦ hline (heq ▸ hx)
      rw [Option.elim_some, List.take_left, List.takeWhile_append_of_pos hall,
        List.takeWhile_cons_of_neg (by simp), List.append_nil]

/-! ## Skipping -/

/-- The first element other than `a` is where the run of `a`s ends. -/
theorem drop_findFirstNotOf {a : α} {l : List α} {pos n : Nat}
    (h : findFirstNotOf a l pos = some n) : l.drop n = (l.drop pos).dropWhile (· = a) := by
  obtain ⟨i, hi, rfl⟩ := Option.map_eq_some_iff.mp h
  rw [← List.drop_drop]
  clear h
  generalize l.drop pos = m at hi
  induction m generalizing i with
  | nil => cases hi
  | cons x xs ih =>
      rw [List.findIdx?_cons] at hi
      by_cases hx : x = a
      · rw [if_neg (by simpa using hx)] at hi
        obtain ⟨j, hj, rfl⟩ := Option.map_eq_some_iff.mp hi
        rw [List.drop_succ_cons, List.dropWhile_cons_of_pos (by simpa using hx)]
        exact ih j hj
      · rw [if_pos (by simpa using hx)] at hi
        cases hi
        rw [List.drop_zero, List.dropWhile_cons_of_neg (by simpa using hx)]

theorem findFirstNotOf_eq_none_iff {a : α} {l : List α} {pos : Nat} :
    findFirstNotOf a l pos = none ↔ ∀ x ∈ l.drop pos, x = a := by
  rw [findFirstNotOf, Option.map_eq_none_iff, List.findIdx?_eq_none_iff]
  simp

end Search
