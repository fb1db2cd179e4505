import Mathlib

/-!
# Windows of arrays

C code works on a part of an array through a pointer and a count.  `window a off n` is the
list of the `n` elements from index `off` on, and `blit` writes a list into an array.
-/

namespace Lib

variable {α : Type*}

/-- The `n` elements of an array from index `off` on. -/
def window (a : ℕ → α) (off n : ℕ) : List α := (List.range' off n).map a

/-- Write a list into an array from index `off` on. -/
def blit (a : ℕ → α) (off : ℕ) (xs : List α) : ℕ → α := fun i =>
  if off ≤ i then (xs[i - off]?).getD (a i) else a i

variable {a : ℕ → α} {off n : ℕ}

@[simp] lemma window_zero : window a off 0 = [] := rfl

@[simp] lemma length_window : (window a off n).length = n := by
  rw [window, List.length_map, List.length_range']

lemma mem_window {x : α} : x ∈ window a off n ↔ ∃ i < n, a (off + i) = x := by
  simp only [window, List.mem_map, List.mem_range'_1]
  constructor
  · rintro ⟨j, ⟨hj, hjn⟩, rfl⟩
    exact ⟨j - off, by omega, by rw [Nat.add_sub_cancel' hj]⟩
  · rintro ⟨i, hi, rfl⟩
    exact ⟨off + i, ⟨by omega, by omega⟩, rfl⟩

/-- A window falls into a first part and the rest. -/
lemma window_add (a : ℕ → α) (off m n : ℕ) :
    window a off (m + n) = window a off m ++ window a (off + m) n := by
  rw [window, window, window, ← List.map_append, List.range'_append_1]

lemma window_split {k : ℕ} (hk : k ≤ n) :
    window a off n = window a off k ++ window a (off + k) (n - k) := by
  rw [← window_add, Nat.add_sub_cancel' hk]

lemma window_succ (a : ℕ → α) (off n : ℕ) :
    window a off (n + 1) = window a off n ++ [a (off + n)] := by
  rw [window_add]
  rfl

lemma window_cons (a : ℕ → α) (off n : ℕ) :
    window a off (n + 1) = a off :: window a (off + 1) n := by
  rw [window, List.range'_succ, List.map_cons]
  rfl

lemma window_congr {b : ℕ → α} (h : ∀ i < n, a (off + i) = b (off + i)) :
    window a off n = window b off n := by
  refine List.map_congr_left ?_
  intro j hj
  rw [List.mem_range'_1] at hj
  have := h (j - off) (by omega)
  rwa [Nat.add_sub_cancel' hj.1] at this

/-- A window of the array from entry `k` on. -/
lemma window_comp_add (a : ℕ → α) (k n : ℕ) :
    window (fun i => a (k + i)) 0 n = window a k n := by
  rw [window, window, ← Nat.add_zero k, ← List.map_add_range', List.map_map, Nat.add_zero]
  rfl

lemma map_window {β : Type*} (f : α → β) : (window a off n).map f = window (f ∘ a) off n := by
  rw [window, window, List.map_map]

lemma blit_of_lt {xs : List α} {i : ℕ} (hi : i < off) : blit a off xs i = a i := by
  rw [blit, if_neg (by omega)]

lemma blit_add {xs : List α} {i : ℕ} (hi : i < xs.length) : blit a off xs (off + i) = xs[i] := by
  rw [blit, if_pos (by omega), Nat.add_sub_cancel_left, List.getElem?_eq_getElem hi]
  rfl

lemma blit_window (a : ℕ → α) (off : ℕ) (b : ℕ → α) (src : ℕ) {i : ℕ} (hi : i < n) :
    blit a off (window b src n) (off + i) = b (src + i) := by
  rw [blit_add (by rwa [length_window])]
  simp [window]

lemma blit_concat (a : ℕ → α) (off : ℕ) (xs : List α) (x : α) :
    blit a off (xs ++ [x]) = Function.update (blit a off xs) (off + xs.length) x := by
  funext i
  rcases Nat.lt_trichotomy i (off + xs.length) with hi | rfl | hi
  · rw [Function.update_of_ne (by omega)]
    rcases Nat.lt_or_ge i off with hoff | hoff
    · rw [blit_of_lt hoff, blit_of_lt hoff]
    · rw [blit, blit, List.getElem?_append_left (by omega)]
  · rw [Function.update_self, blit_add (by simp)]
    simp
  · rw [Function.update_of_ne (by omega), blit, blit, List.getElem?_eq_none (by simp; omega),
      List.getElem?_eq_none (by omega)]

lemma blit_append (a : ℕ → α) (off : ℕ) (xs ys : List α) :
    blit a off (xs ++ ys) = blit (blit a off xs) (off + xs.length) ys := by
  induction ys using List.reverseRecOn with
  | nil =>
    funext i
    simp [blit]
  | append_singleton ys y ih =>
    rw [← List.append_assoc, blit_concat, ih, blit_concat, List.length_append, Nat.add_assoc]

/-- What was written is read back. -/
@[simp] lemma window_blit (a : ℕ → α) (off : ℕ) (xs : List α) :
    window (blit a off xs) off xs.length = xs := by
  refine List.ext_getElem length_window ?_
  intro i hi hi'
  simp only [window, List.getElem_map, List.getElem_range', Nat.one_mul]
  exact blit_add hi'

/-- Writing behind a window lengthens it. -/
lemma window_blit_append (a : ℕ → α) (off n : ℕ) (xs : List α) :
    window (blit a (off + n) xs) off (n + xs.length) = window a off n ++ xs := by
  rw [window_add, window_blit]
  congr 1
  exact window_congr fun i hi => blit_of_lt (by omega)

end Lib
