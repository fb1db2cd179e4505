import Mathlib

/-!
# Events that are spaced in time

A sequence of events is spaced by `d` when each one is more than `d` later than all before
it.  A window of `w` ticks then holds at most `w / d + 1` of them, which bounds the rate of
whatever the events carry.
-/

namespace Lib

variable {α : Type*}

/-- Each event is more than `d` later than the events before it. -/
def Spaced (time : α → ℕ) (d : ℕ) (xs : List α) : Prop :=
  xs.Pairwise fun x y => time x + d < time y

/-- The events from `t` to `t + w`. -/
def inWindow (time : α → ℕ) (t w : ℕ) (xs : List α) : List α :=
  xs.filter fun x => decide (t ≤ time x ∧ time x ≤ t + w)

namespace Spaced

variable {time : α → ℕ} {d : ℕ} {xs : List α}

lemma nil : Spaced time d [] := List.Pairwise.nil

lemma concat {x : α} (h : Spaced time d xs) (hx : ∀ y ∈ xs, time y + d < time x) :
    Spaced time d (xs ++ [x]) := by
  refine List.pairwise_append.mpr ⟨h, List.pairwise_singleton _ _, ?_⟩
  intro y hy z hz
  rw [List.mem_singleton.mp hz]
  exact hx y hy

/-- Spaced events need room: the induction moves the left end of the interval past the
first event. -/
lemma length_mul_le {a b : ℕ} (h : Spaced time d xs) (hin : ∀ x ∈ xs, a ≤ time x ∧ time x ≤ b)
    (hab : a ≤ b + d + 1) : xs.length * (d + 1) + a ≤ b + d + 1 := by
  induction xs generalizing a with
  | nil => simpa using hab
  | cons x xs ih =>
    obtain ⟨hx, hxs⟩ := List.pairwise_cons.mp h
    obtain ⟨hax, hxb⟩ := hin x List.mem_cons_self
    have hrest := ih (a := time x + d + 1) hxs
      (fun y hy => ⟨hx y hy, (hin y (List.mem_cons_of_mem _ hy)).2⟩) (by omega)
    calc (x :: xs).length * (d + 1) + a = xs.length * (d + 1) + (d + 1) + a := by
          rw [List.length_cons, Nat.add_one_mul]
      _ ≤ xs.length * (d + 1) + (time x + d + 1) := by omega
      _ ≤ b + d + 1 := hrest

lemma length_inWindow_le (h : Spaced time d xs) (hd : 0 < d) (t w : ℕ) :
    (inWindow time t w xs).length ≤ w / d + 1 := by
  have hspaced : Spaced time d (inWindow time t w xs) := h.sublist List.filter_sublist
  have hin : ∀ x ∈ inWindow time t w xs, t ≤ time x ∧ time x ≤ t + w := fun x hx =>
    of_decide_eq_true (List.mem_filter.mp hx).2
  have hroom := hspaced.length_mul_le hin (by omega)
  generalize (inWindow time t w xs).length = n at hroom ⊢
  -- all but the first event take `d` ticks each
  obtain _ | n := n
  · exact Nat.zero_le _
  · refine Nat.succ_le_succ ((Nat.le_div_iff_mul_le hd).mpr ?_)
    rw [Nat.add_one_mul, Nat.mul_add_one] at hroom
    omega

/-- **Rate bound.**  What spaced events carry in a window, when none carries more than `c`. -/
theorem sum_inWindow_le {size : α → ℕ} {c : ℕ} (h : Spaced time d xs)
    (hsize : ∀ x ∈ xs, size x ≤ c) (hd : 0 < d) (t w : ℕ) :
    ((inWindow time t w xs).map size).sum ≤ c * (w / d + 1) := by
  have hsum := List.sum_le_card_nsmul ((inWindow time t w xs).map size) c fun n hn => by
    obtain ⟨x, hx, rfl⟩ := List.mem_map.mp hn
    exact hsize x (List.mem_filter.mp hx).1
  rw [List.length_map, smul_eq_mul, Nat.mul_comm] at hsum
  exact hsum.trans (Nat.mul_le_mul_left c (h.length_inWindow_le hd t w))

end Spaced

end Lib
