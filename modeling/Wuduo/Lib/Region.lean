import Mathlib.Data.List.Basic
import Mathlib.Tactic.Ring

/-!
# Regions of a fixed storage area

A storage area is a list that keeps its length while parts of it are written.
This file has the three ways in which such an area changes — writing a run of
elements over a region, copying one region onto another in place, and growing
the area at its end — together with `window`, the contents of one region.

Everything is reduced to `getElem?`: each operation has one lemma saying what is
found at a position afterwards, and the equations between windows follow from
these by extensionality.

In-place copying is defined the way a forward copy loop runs, one element at a
time on the same area.  It agrees with reading the source region first and
writing it afterwards only when the destination does not start inside the
source, and `window_copyForward` is that statement.
-/

namespace Region

variable {α : Type*}

/-- The `n` elements from position `i` on. -/
def window (xs : List α) (i n : Nat) : List α := (xs.drop i).take n

/-- `xs` with `ys` written over the elements from position `i` on.  The area
keeps its length. -/
def overwrite : List α → Nat → List α → List α
  | [], _, _ => []
  | x :: xs, i + 1, ys => x :: overwrite xs i ys
  | x :: xs, 0, [] => x :: xs
  | _ :: xs, 0, y :: ys => y :: overwrite xs 0 ys

/-- Copy `n` elements from position `src` on to position `dst` on, one element
at a time in increasing order, within one area. -/
def copyForward : Nat → List α → Nat → Nat → List α
  | 0, xs, _, _ => xs
  | n + 1, xs, src, dst =>
      let ys := match xs[src]? with
        | some x => xs.set dst x
        | none => xs
      copyForward n ys (src + 1) (dst + 1)

/-- The area cut or extended to length `n`, new elements being `pad`. -/
def resize (xs : List α) (n : Nat) (pad : α) : List α :=
  xs.take n ++ List.replicate (n - xs.length) pad

/-! ## Lengths -/

@[simp] theorem length_overwrite (xs : List α) (i : Nat) (ys : List α) :
    (overwrite xs i ys).length = xs.length := by
  fun_induction overwrite xs i ys <;> simp_all

@[simp] theorem length_copyForward (n : Nat) (xs : List α) (src dst : Nat) :
    (copyForward n xs src dst).length = xs.length := by
  induction n generalizing xs src dst with
  | zero => rfl
  | succ n ih =>
      rw [copyForward, ih]
      split
      · rw [List.length_set]
      · rfl

@[simp] theorem length_resize (xs : List α) (n : Nat) (pad : α) :
    (resize xs n pad).length = n := by
  simp only [resize, List.length_append, List.length_take, List.length_replicate]
  omega

/-- A window that lies inside the area has the length asked for. -/
theorem length_window {xs : List α} {i n : Nat} (h : i + n ≤ xs.length) :
    (window xs i n).length = n := by
  simp only [window, List.length_take, List.length_drop]
  omega

/-! ## Elements -/

theorem getElem?_window (xs : List α) (i n k : Nat) :
    (window xs i n)[k]? = if k < n then xs[i + k]? else none := by
  simp only [window, List.getElem?_take, List.getElem?_drop]

theorem getElem?_overwrite (xs : List α) (i : Nat) (ys : List α) (k : Nat)
    (h : i + ys.length ≤ xs.length) :
    (overwrite xs i ys)[k]? =
      if k < i then xs[k]? else if k < i + ys.length then ys[k - i]? else xs[k]? := by
  fun_induction overwrite xs i ys generalizing k with
  | case1 i ys => simp at h; simp [h]
  | case2 x xs i ys ih =>
      cases k with
      | zero => simp
      | succ k =>
          simp only [List.length_cons] at h
          simp only [List.getElem?_cons_succ, ih k (by omega)]
          grind
  | case3 x xs => simp
  | case4 x xs y ys ih =>
      cases k with
      | zero => simp
      | succ k =>
          simp only [List.length_cons] at h
          simp only [List.getElem?_cons_succ, ih k (by omega)]
          grind

/-- What a forward copy leaves at each position, when the destination does not
start behind the source: an element is overwritten only after it was read. -/
theorem getElem?_copyForward (n : Nat) (xs : List α) (src dst k : Nat)
    (hle : dst ≤ src) (h : src + n ≤ xs.length) :
    (copyForward n xs src dst)[k]? =
      if dst ≤ k ∧ k < dst + n then xs[k - dst + src]? else xs[k]? := by
  induction n generalizing xs src dst with
  | zero => simp only [copyForward]; grind
  | succ n ih =>
      have hx : xs[src]? = some xs[src] := List.getElem?_eq_getElem (by omega)
      rw [copyForward, hx, ih _ _ _ (by omega) (by rw [List.length_set]; omega)]
      clear ih
      -- the positions behind `dst` are read from behind `src`, which the write left alone
      simp only [List.getElem?_set]
      by_cases hk : k = dst
      · subst hk
        rw [if_neg (by omega), if_pos rfl, if_pos (by omega), if_pos (by omega),
          show k - k + src = src by omega, hx]
      · grind

theorem getElem?_resize {xs : List α} {n : Nat} (pad : α) {k : Nat} (h : k < xs.length)
    (hn : xs.length ≤ n) : (resize xs n pad)[k]? = xs[k]? := by
  rw [resize, List.take_of_length_le hn, List.getElem?_append_left h]

/-! ## Windows -/

/-- The empty window. -/
@[simp] theorem window_zero (xs : List α) (i : Nat) : window xs i 0 = [] := List.take_zero

/-- Writing right behind a window extends it by what is written. -/
theorem window_overwrite_behind {xs ys : List α} {i j : Nat} (hij : i ≤ j)
    (h : j + ys.length ≤ xs.length) :
    window (overwrite xs j ys) i (j + ys.length - i) = window xs i (j - i) ++ ys := by
  apply List.ext_getElem?
  intro k
  have hlen : (window xs i (j - i)).length = j - i := length_window (by omega)
  rw [List.getElem?_append, hlen]
  simp only [getElem?_window, getElem?_overwrite _ _ _ _ h]
  grind

/-- Writing right before a window extends it at the front. -/
theorem window_overwrite_before {xs ys : List α} {i j : Nat} (hy : ys.length ≤ i)
    (hij : i ≤ j) (h : j ≤ xs.length) :
    window (overwrite xs (i - ys.length) ys) (i - ys.length) (j - (i - ys.length)) =
      ys ++ window xs i (j - i) := by
  apply List.ext_getElem?
  intro k
  rw [List.getElem?_append]
  simp only [getElem?_window, getElem?_overwrite _ _ _ _ (show i - ys.length + ys.length
    ≤ xs.length by omega)]
  grind

/-- Copying a region down leaves it readable at its new place. -/
theorem window_copyForward {xs : List α} {n src dst : Nat} (hle : dst ≤ src)
    (h : src + n ≤ xs.length) :
    window (copyForward n xs src dst) dst n = window xs src n := by
  apply List.ext_getElem?
  intro k
  simp only [getElem?_window, getElem?_copyForward n xs src dst _ hle h]
  grind

/-- Growing the area keeps every window of it. -/
theorem window_resize {xs : List α} {i m n : Nat} (pad : α) (h : i + m ≤ xs.length)
    (hn : xs.length ≤ n) : window (resize xs n pad) i m = window xs i m := by
  apply List.ext_getElem?
  intro k
  simp only [getElem?_window]
  split
  · exact getElem?_resize pad (by omega) hn
  · rfl

theorem drop_window (xs : List α) (i m n : Nat) :
    (window xs i m).drop n = window xs (i + n) (m - n) := by
  rw [window, window, List.drop_take, List.drop_drop]

theorem take_window (xs : List α) {i m n : Nat} (h : n ≤ m) :
    (window xs i m).take n = window xs i n := by
  rw [window, window, List.take_take, Nat.min_eq_left h]

end Region
