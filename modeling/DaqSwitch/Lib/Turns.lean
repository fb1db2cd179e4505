import Mathlib

/-!
# Handing out in turn

The elements of a list are given slots in turn, the one at the index `i` the slot at `i` modulo the
number of slots.  Then the numbers of elements of two slots differ by one at most.
-/

namespace Lib.Turns

variable {α β : Type*}

/-- How many of the numbers below `m` have a given remainder. -/
lemma count_mod_bounds {m n k : ℕ} (hk : k < n) : m / n ≤ m.count (fun i => i % n = k) ∧
    m.count (fun i => i % n = k) ≤ m / n + 1 := by
  have hcount : m.count (fun i => i % n = k) = m.count (· ≡ k [MOD n]) := by
    refine List.countP_congr fun i _ => ?_
    simp [Nat.ModEq, Nat.mod_eq_of_lt hk]
  rw [hcount, Nat.count_modEq_card _ (by omega)]
  split <;> omega

/-- A property of the elements that depends on the index. -/
lemma countP_eq_count (l : List α) {p : α → Bool} {q : ℕ → Prop} [DecidablePred q]
    (h : ∀ i a, l[i]? = some a → (p a = true ↔ q i)) : l.countP p = l.length.count q := by
  have hfst : l.countP p = l.zipIdx.countP fun ai => p ai.1 := by
    conv_lhs => rw [← List.zipIdx_map_fst 0 l, List.countP_map]
    rfl
  have hsnd : l.length.count q = l.zipIdx.countP fun ai => decide (q ai.2) := by
    rw [Nat.count, List.range_eq_range', ← List.zipIdx_map_snd 0 l, List.countP_map]
    rfl
  rw [hfst, hsnd]
  refine List.countP_congr ?_
  rintro ⟨a, i⟩ hmem
  have hget := List.mk_mem_zipIdx_iff_getElem?.mp hmem
  rw [decide_eq_true_eq]
  exact h i a hget

/-- How many elements are given a slot. -/
theorem countP_turn_bounds {l : List α} {slots : List β} (hslots : slots.Nodup) {b : β}
    (hb : b ∈ slots) {p : α → Bool}
    (h : ∀ i a, l[i]? = some a → (p a = true ↔ slots[i % slots.length]? = some b)) :
    l.length / slots.length ≤ l.countP p ∧ l.countP p ≤ l.length / slots.length + 1 := by
  obtain ⟨k, hk, hget⟩ := List.mem_iff_getElem.mp hb
  have hget' : slots[k]? = some b := List.getElem?_eq_some_iff.mpr ⟨hk, hget⟩
  have hcount : l.countP p = l.length.count fun i => i % slots.length = k := by
    refine countP_eq_count l fun i a ha => ?_
    rw [h i a ha, ← hget', List.getElem?_inj (Nat.mod_lt i (by omega)) hslots]
  rw [hcount]
  exact count_mod_bounds hk

end Lib.Turns
