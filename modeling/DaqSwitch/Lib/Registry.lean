import Mathlib

/-!
# Registries and slot arrays

A registry hands out numbers: a key that is met for the first time gets the next number, a
known key gets its old one.  `Registry` is the abstract object, a list of entries with
pairwise distinct keys; a slot array is its usual implementation, an array of records with
a flag, searched from the front.  `Holds` connects the two, and the lemmas about it turn
the searches of the array into operations of the registry.
-/

namespace Lib

variable {ε κ : Type*}

/-- Entries in the order of their registration, with distinct keys, at most `cap` of
them. -/
structure Registry (key : ε → κ) (cap : ℕ) where
  entries : List ε
  nodup : (entries.map key).Nodup
  bounded : entries.length ≤ cap

namespace Registry

variable {key : ε → κ} {cap : ℕ}

def empty (key : ε → κ) (cap : ℕ) : Registry key cap := ⟨[], List.nodup_nil, Nat.zero_le _⟩

@[simp] lemma empty_entries : (empty key cap).entries = [] := rfl

/-- One registry is a later state of another. -/
def Extends (R R' : Registry key cap) : Prop := R.entries <+: R'.entries

lemma Extends.refl (R : Registry key cap) : Extends R R := List.prefix_refl _

lemma Extends.trans {R R' R'' : Registry key cap} (h : Extends R R') (h' : Extends R' R'') :
    Extends R R'' := List.IsPrefix.trans h h'

lemma Extends.getElem? {R R' : Registry key cap} (h : Extends R R') {i : ℕ} {e : ε}
    (he : R.entries[i]? = some e) : R'.entries[i]? = some e := by
  obtain ⟨rest, hrest⟩ := h
  rw [← hrest, List.getElem?_append_left (List.getElem?_eq_some_iff.mp he).1, he]

variable [DecidableEq κ]

/-- The number of a key. -/
def indexOf (R : Registry key cap) (k : κ) : Option ℕ :=
  R.entries.findIdx? fun e => key e == k

lemma indexOf_eq_some {R : Registry key cap} {k : κ} {i : ℕ} (h : R.indexOf k = some i) :
    ∃ e, R.entries[i]? = some e ∧ key e = k := by
  obtain ⟨hi, hk, -⟩ := List.findIdx?_eq_some_iff_getElem.mp h
  exact ⟨R.entries[i], List.getElem?_eq_getElem hi, by simpa using hk⟩

lemma indexOf_lt {R : Registry key cap} {k : κ} {i : ℕ} (h : R.indexOf k = some i) :
    i < R.entries.length :=
  (List.findIdx?_eq_some_iff_getElem.mp h).1

/-- Different keys have different numbers. -/
lemma indexOf_inj {R : Registry key cap} {k k' : κ} {i : ℕ} (h : R.indexOf k = some i)
    (h' : R.indexOf k' = some i) : k = k' := by
  obtain ⟨e, he, rfl⟩ := indexOf_eq_some h
  obtain ⟨e', he', rfl⟩ := indexOf_eq_some h'
  rw [he, Option.some_inj] at he'
  rw [he']

lemma indexOf_eq_none_iff {R : Registry key cap} {k : κ} :
    R.indexOf k = none ↔ k ∉ R.entries.map key := by
  simp [indexOf, List.findIdx?_eq_none_iff]

/-- Every entry is found under its key. -/
lemma indexOf_getElem (R : Registry key cap) {i : ℕ} (hi : i < R.entries.length) :
    R.indexOf (key R.entries[i]) = some i := by
  rw [indexOf, List.findIdx?_eq_some_iff_getElem]
  refine ⟨hi, by simp, ?_⟩
  intro j hji
  have hne : key R.entries[j] ≠ key R.entries[i] := by
    intro heq
    have hj : j < (R.entries.map key).length := by rw [List.length_map]; omega
    have hi' : i < (R.entries.map key).length := by rw [List.length_map]; omega
    have : (R.entries.map key)[j] = (R.entries.map key)[i] := by simpa using heq
    have := (List.Nodup.getElem_inj_iff R.nodup).mp this
    omega
  simpa using hne

/-- Add an entry under a new key. -/
def push (R : Registry key cap) (e : ε) (hfresh : R.indexOf (key e) = none)
    (hroom : R.entries.length < cap) : Registry key cap where
  entries := R.entries ++ [e]
  nodup := by
    rw [List.map_append, List.map_singleton, List.nodup_append]
    refine ⟨R.nodup, List.nodup_singleton _, ?_⟩
    intro a ha b hb
    rw [List.mem_singleton] at hb
    rintro rfl
    exact indexOf_eq_none_iff.mp hfresh (hb ▸ ha)
  bounded := by
    rw [List.length_append, List.length_singleton]
    exact hroom

@[simp] lemma push_entries (R : Registry key cap) (e : ε) (hfresh : R.indexOf (key e) = none)
    (hroom : R.entries.length < cap) : (R.push e hfresh hroom).entries = R.entries ++ [e] := rfl

/-- A new key gets the next number. -/
lemma indexOf_push (R : Registry key cap) (e : ε) (hfresh : R.indexOf (key e) = none)
    (hroom : R.entries.length < cap) :
    (R.push e hfresh hroom).indexOf (key e) = some R.entries.length := by
  have hlen : R.entries.length < (R.push e hfresh hroom).entries.length := by simp
  have h := (R.push e hfresh hroom).indexOf_getElem hlen
  simpa only [push_entries, List.getElem_concat_length] using h

/-- A number, once given to a key, stays with it. -/
lemma Extends.indexOf {R R' : Registry key cap} (h : Extends R R') {k : κ} {i : ℕ}
    (hi : R.indexOf k = some i) : R'.indexOf k = some i := by
  obtain ⟨rest, hrest⟩ := h
  rw [Registry.indexOf, ← hrest, List.findIdx?_append]
  rw [Registry.indexOf] at hi
  rw [hi]
  rfl

end Registry

/-! ## Slot arrays -/

namespace SlotArray

variable (live : ε → Bool) (key : ε → κ) (cap : ℕ)

/-- The first live slot with a given key. -/
def lookup [DecidableEq κ] (a : ℕ → ε) (k : κ) : Option ℕ :=
  (List.range cap).find? fun i => live (a i) && key (a i) == k

/-- The first slot that is not live. -/
def free (a : ℕ → ε) : Option ℕ :=
  (List.range cap).find? fun i => !live (a i)

variable {live key cap}

/-- The slot array holds the registry: its entries from the front, then dead slots. -/
structure Holds (live : ε → Bool) (a : ℕ → ε) (R : Registry key cap) : Prop where
  get : ∀ i e, R.entries[i]? = some e → a i = e
  isLive : ∀ i < R.entries.length, live (a i) = true
  isDead : ∀ i, R.entries.length ≤ i → live (a i) = false

lemma holds_empty {a : ℕ → ε} (h : ∀ i, live (a i) = false) :
    Holds live a (Registry.empty key cap) where
  get i e he := by simp at he
  isLive i hi := absurd hi (Nat.not_lt_zero i)
  isDead i _ := h i

variable {a : ℕ → ε} {R : Registry key cap}

lemma Holds.live_iff (h : Holds live a R) {i : ℕ} : live (a i) = true ↔ i < R.entries.length := by
  constructor
  · intro hl
    by_contra hi
    rw [h.isDead i (by omega)] at hl
    cases hl
  · exact h.isLive i

/-- The first dead slot is the next number of the registry. -/
lemma Holds.free_eq (h : Holds live a R) :
    free live cap a = if R.entries.length < cap then some R.entries.length else none := by
  by_cases hroom : R.entries.length < cap
  · rw [if_pos hroom, free, List.find?_range_eq_some]
    refine ⟨by simp [h.isDead _ le_rfl], List.mem_range.mpr hroom, ?_⟩
    intro j hj
    simp [h.isLive j hj]
  · rw [if_neg hroom, free, List.find?_range_eq_none]
    intro i hi
    simp [h.isLive i (by omega)]

variable [DecidableEq κ]

lemma Holds.key_eq (h : Holds live a R) {i : ℕ} (hi : i < R.entries.length) :
    R.indexOf (key (a i)) = some i := by
  rw [h.get i _ (List.getElem?_eq_getElem hi)]
  exact R.indexOf_getElem hi

/-- A look-up in the array is a look-up in the registry. -/
lemma Holds.lookup_eq (h : Holds live a R) (k : κ) : lookup live key cap a k = R.indexOf k := by
  cases hk : R.indexOf k with
  | none =>
    rw [lookup, List.find?_range_eq_none]
    intro i _
    by_contra hc
    simp only [Bool.not_eq_true', Bool.not_eq_false, Bool.and_eq_true, beq_iff_eq] at hc
    have hi := h.key_eq (h.live_iff.mp hc.1)
    rw [hc.2, hk] at hi
    cases hi
  | some i =>
    have hi := Registry.indexOf_lt hk
    have hkey : key (a i) = k := Registry.indexOf_inj (h.key_eq hi) hk
    rw [lookup, List.find?_range_eq_some]
    refine ⟨by simp [h.isLive i hi, hkey], List.mem_range.mpr (hi.trans_le R.bounded), ?_⟩
    -- a slot before `i` holds an entry with another number, so with another key
    intro j hji
    have hj := h.key_eq (i := j) (by omega)
    have hne : key (a j) ≠ k := by
      intro heq
      rw [heq, hk, Option.some_inj] at hj
      omega
    simp [hne]

/-- Writing a live record with a new key into the first dead slot registers it. -/
lemma Holds.push (h : Holds live a R) {e : ε} (he : live e = true)
    (hfresh : R.indexOf (key e) = none) (hroom : R.entries.length < cap) :
    Holds live (Function.update a R.entries.length e) (R.push e hfresh hroom) where
  get i e' hi := by
    rw [Registry.push_entries] at hi
    by_cases hlen : i = R.entries.length
    · subst hlen
      rw [Function.update_self]
      simpa using hi
    · rw [Function.update_of_ne hlen]
      have hlt := (List.getElem?_eq_some_iff.mp hi).1
      rw [List.length_append, List.length_singleton] at hlt
      rw [List.getElem?_append_left (by omega)] at hi
      exact h.get i e' hi
  isLive i hi := by
    rw [Registry.push_entries, List.length_append, List.length_singleton] at hi
    by_cases hlen : i = R.entries.length
    · subst hlen
      rw [Function.update_self]
      exact he
    · rw [Function.update_of_ne hlen]
      exact h.isLive i (by omega)
  isDead i hi := by
    rw [Registry.push_entries, List.length_append, List.length_singleton] at hi
    rw [Function.update_of_ne (by omega)]
    exact h.isDead i (by omega)

end SlotArray

end Lib
