import Mathlib

/-!
# Cyclic scans

Round-robin searches visit the indices `start + 1, start + 2, …, start + n` modulo `n`
and stop at the first one that satisfies a test.
-/

namespace Lib.CyclicScan

/-- The `i`-th index that a scan of `n` slots visits after `start`. -/
def visit (n start i : ℕ) : ℕ := (start + i + 1) % n

/-- The first index after `start`, cyclically, that satisfies `p`. -/
def scan (n start : ℕ) (p : ℕ → Bool) : Option ℕ :=
  ((List.range n).map (visit n start)).find? p

variable {n start : ℕ} {p : ℕ → Bool}

lemma visit_lt {i : ℕ} (hn : 0 < n) : visit n start i < n := Nat.mod_lt _ hn

/-- A scan visits every slot. -/
lemma exists_visit_eq {j : ℕ} (hj : j < n) : ∃ i < n, visit n start i = j := by
  have hn : 0 < n := by omega
  have hs : (start + 1) % n < n := Nat.mod_lt _ hn
  -- from `(start + 1) % n` on, `j` is met before or after the wrap-around
  by_cases h : (start + 1) % n ≤ j
  · refine ⟨j - (start + 1) % n, by omega, ?_⟩
    have hnext : start + (j - (start + 1) % n) + 1 = (start + 1) + (j - (start + 1) % n) := by omega
    rw [visit, hnext, Nat.add_mod, Nat.mod_eq_of_lt (a := j - (start + 1) % n) (by omega),
      Nat.add_sub_cancel' h, Nat.mod_eq_of_lt hj]
  · refine ⟨j + n - (start + 1) % n, by omega, ?_⟩
    rw [visit, show start + (j + n - (start + 1) % n) + 1
        = (start + 1) + (j + n - (start + 1) % n) by omega,
      Nat.add_mod, Nat.mod_eq_of_lt (a := j + n - (start + 1) % n) (by omega),
      Nat.add_sub_cancel' (by omega), Nat.add_mod_right, Nat.mod_eq_of_lt hj]

lemma scan_some {j : ℕ} (h : scan n start p = some j) : j < n ∧ p j = true := by
  obtain ⟨i, hi, rfl⟩ := List.mem_map.mp (List.mem_of_find?_eq_some h)
  have hn : 0 < n := by
    have := List.mem_range.mp hi
    omega
  exact ⟨visit_lt hn, List.find?_some h⟩

/-- A scan fails exactly when no slot satisfies the test. -/
lemma scan_eq_none_iff : scan n start p = none ↔ ∀ j < n, p j = false := by
  rw [scan, List.find?_eq_none]
  constructor
  · intro h j hj
    obtain ⟨i, hi, rfl⟩ : ∃ i < n, visit n start i = j := exists_visit_eq hj
    simpa using h _ (List.mem_map_of_mem (List.mem_range.mpr hi))
  · intro h j hj
    obtain ⟨i, hi, rfl⟩ := List.mem_map.mp hj
    have hn : 0 < n := by
      have := List.mem_range.mp hi
      omega
    simp [h _ (visit_lt hn)]

/-- Visits are composed by adding their distances. -/
lemma visit_visit {i j : ℕ} : visit n (visit n start i) j = visit n start (i + j + 1) := by
  rw [visit, visit, visit, Nat.add_assoc, Nat.mod_add_mod]
  congr 1
  omega

/-- A scan does not go past a slot that satisfies the test: it finds this one, or another one
from where it is closer. -/
lemma scan_of_visit {i : ℕ} (hi : i < n) (hp : p (visit n start i) = true) :
    ∃ i' ≤ i, scan n start p = some (visit n start i') ∧
      (i' < i → visit n (visit n start i') (i - i' - 1) = visit n start i) := by
  have hex : ∃ i, p (visit n start i) = true := ⟨i, hp⟩
  obtain ⟨i', hi', hfirst⟩ : ∃ i', p (visit n start i') = true ∧
      ∀ j < i', ¬ p (visit n start j) = true :=
    ⟨Nat.find hex, Nat.find_spec hex, fun j hj => Nat.find_min hex hj⟩
  have hle : i' ≤ i := Nat.le_of_not_lt fun h => hfirst i h hp
  refine ⟨i', hle, ?_, ?_⟩
  · have hrange : (List.range n).find? (p ∘ visit n start) = some i' := by
      refine List.find?_range_eq_some.mpr ⟨hi', List.mem_range.mpr (by omega), fun j hj => ?_⟩
      simpa using hfirst j hj
    rw [scan, List.find?_map, hrange, Option.map_some]
  · intro hlt
    rw [visit_visit]
    congr 1
    omega

lemma visit_add_slots (n start i : ℕ) : visit n start (i + n) = visit n start i := by
  rw [visit, visit, show start + (i + n) + 1 = start + i + 1 + n by omega, Nat.add_mod_right]

/-- A scan visits no slot twice. -/
lemma visit_inj {i j : ℕ} (hi : i < n) (hj : j < n) (h : visit n start i = visit n start j) :
    i = j := by
  have hmod : start + 1 + i ≡ start + 1 + j [MOD n] := by
    rw [Nat.add_right_comm, Nat.add_right_comm start 1 j]
    exact h
  exact (Nat.ModEq.add_left_cancel' _ hmod).eq_of_lt_of_lt hi hj

/-! ## Scans with different tests -/

variable {r : ℕ → Bool} {a b j : ℕ}

/-- The result of a scan is the first visit that satisfies the test. -/
lemma scan_eq_some_iff : scan n start p = some j ↔
    ∃ i < n, visit n start i = j ∧ p j = true ∧ ∀ i' < i, p (visit n start i') = false := by
  rw [scan, List.find?_map, Option.map_eq_some_iff]
  constructor
  · rintro ⟨i, hi, rfl⟩
    obtain ⟨hp, hlt, hfirst⟩ := List.find?_range_eq_some.mp hi
    exact ⟨i, List.mem_range.mp hlt, rfl, hp, fun i' hi' => by simpa using hfirst i' hi'⟩
  · rintro ⟨i, hlt, rfl, hp, hfirst⟩
    refine ⟨i, List.find?_range_eq_some.mpr ⟨hp, List.mem_range.mpr hlt, ?_⟩, rfl⟩
    intro i' hi'
    simpa using hfirst i' hi'

/-- A scan with a stronger test stops at the same slot if this meets the stronger test. -/
lemma scan_of_imp (h : scan n start p = some b) (himp : ∀ x, r x = true → p x = true)
    (hr : r b = true) : scan n start r = some b := by
  obtain ⟨i, hi, rfl, -, hfirst⟩ := scan_eq_some_iff.mp h
  refine scan_eq_some_iff.mpr ⟨i, hi, rfl, hr, ?_⟩
  intro i' hi'
  have := hfirst i' hi'
  rw [Bool.eq_false_iff] at this ⊢
  exact fun hr' => this (himp _ hr')

/-- Otherwise it may as well start at this slot. -/
lemma scan_skip (h : scan n start p = some b) (himp : ∀ x, r x = true → p x = true)
    (hr : r b = false) : scan n b r = scan n start r := by
  obtain ⟨k, hk, rfl, -, hfirst⟩ := scan_eq_some_iff.mp h
  cases hscan : scan n start r with
  | none => exact scan_eq_none_iff.mpr (scan_eq_none_iff.mp hscan)
  | some j =>
    obtain ⟨i, hi, rfl, hrj, hrest⟩ := scan_eq_some_iff.mp hscan
    -- the slots up to `k` do not meet the stronger test
    have hki : k < i := by
      by_contra hle
      rcases Nat.lt_or_eq_of_le (Nat.le_of_not_lt hle) with hlt | rfl
      · have hp := himp _ hrj
        rw [hfirst i hlt] at hp
        cases hp
      · rw [hr] at hrj
        cases hrj
    have hdist : k + (i - k - 1) + 1 = i := by omega
    refine scan_eq_some_iff.mpr ⟨i - k - 1, by omega, by rw [visit_visit, hdist], hrj, ?_⟩
    intro i' hi'
    rw [visit_visit]
    exact hrest _ (by omega)

/-- A scan comes back to its start last. -/
lemma visit_eq_start {i : ℕ} (hstart : start < n) (hi : i < n) (h : visit n start i = start) :
    i + 1 = n := by
  have hlast : visit n start (n - 1) = start := by
    rw [visit, show start + (n - 1) + 1 = start + n by omega, Nat.add_mod_right,
      Nat.mod_eq_of_lt hstart]
  have := visit_inj hi (by omega) (h.trans hlast.symm)
  omega

/-- To stop at the start as well changes nothing when there is a slot to stop at. -/
lemma scan_or_start (hstart : start < n) (ha : a < n) (hp : p a = true) :
    scan n start (fun x => p x || x == start) = scan n start p := by
  obtain ⟨j, hj⟩ : ∃ j, scan n start p = some j := by
    refine Option.ne_none_iff_exists'.mp ?_
    intro hnone
    rw [scan_eq_none_iff.mp hnone a ha] at hp
    cases hp
  rw [hj]
  obtain ⟨i, hi, hvisit, hpj, hfirst⟩ := scan_eq_some_iff.mp hj
  refine scan_eq_some_iff.mpr ⟨i, hi, hvisit, by rw [hpj, Bool.true_or], ?_⟩
  intro i' hi'
  rw [hfirst i' hi', Bool.false_or, beq_eq_false_iff_ne]
  intro hback
  have := visit_eq_start hstart (by omega) hback
  omega

/-- With another slot to stop at, a scan does not come back to its start. -/
lemma scan_ne_start (ha : a < n) (hp : p a = true) (hne : a ≠ start)
    (h : scan n start p = some b) : b ≠ start := by
  rintro rfl
  obtain ⟨i, hi, hvisit, -, hfirst⟩ := scan_eq_some_iff.mp h
  obtain ⟨k, hk, rfl⟩ : ∃ k < n, visit n b k = a := exists_visit_eq ha
  have hlast := visit_eq_start (scan_some h).1 hi hvisit
  have hki : k < i := by
    refine Nat.lt_of_le_of_ne (by omega) ?_
    rintro rfl
    exact hne hvisit
  rw [hfirst k hki] at hp
  cases hp

/-! ## Counting the slots that are met -/

/-- How many of the slots up to the `i`-th visit satisfy the test. -/
def hits (n start : ℕ) (p : ℕ → Bool) (i : ℕ) : ℕ :=
  (List.range (i + 1)).countP fun j => p (visit n start j)

lemma hits_pos {i : ℕ} (hp : p (visit n start i) = true) : 0 < hits n start p i := by
  rw [hits, List.countP_pos_iff]
  exact ⟨i, List.mem_range.mpr (Nat.lt_succ_self i), hp⟩

/-- The count goes on from a slot on the way. -/
lemma hits_add (n start : ℕ) (p : ℕ → Bool) (i j : ℕ) :
    hits n start p (i + j + 1) = hits n start p i + hits n (visit n start i) p j := by
  have hrest : (fun k => p (visit n start k)) ∘ (fun k => i + 1 + k) =
      fun k => p (visit n (visit n start i) k) := by
    funext k
    rw [Function.comp_apply, visit_visit, Nat.add_right_comm]
  rw [hits, show i + j + 1 + 1 = i + 1 + (j + 1) by omega, List.range_add, List.countP_append,
    List.countP_map, hrest]
  rfl

/-- On the way round, no slot is counted twice. -/
lemma hits_le {i : ℕ} (hi : i < n) : hits n start p i ≤ (List.range n).countP p := by
  have hnodup : ((List.range (i + 1)).map (visit n start)).Nodup := by
    refine List.Nodup.map_on ?_ List.nodup_range
    intro j hj k hk heq
    rw [List.mem_range] at hj hk
    exact visit_inj (by omega) (by omega) heq
  have hsub : (List.range (i + 1)).map (visit n start) ⊆ List.range n := by
    intro j hj
    obtain ⟨k, -, rfl⟩ := List.mem_map.mp hj
    exact List.mem_range.mpr (visit_lt (by omega))
  have hcount := (hnodup.subperm hsub).countP_le p
  rwa [List.countP_map] at hcount

end Lib.CyclicScan
