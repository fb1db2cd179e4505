import Mathlib

/-!
# Tables whose slots are given to keys

A table of `n` slots hands a slot to every key that asks: the slot that was given to the key
before, or else the first one that is free.  Slots are not taken back.  So the table is an
injective map from the keys to the slots that only grows, and it turns a key away only when all
slots are given to other keys.
-/

namespace Lib.SlotTable

variable {κ : Type*} [DecidableEq κ]

/-- The slot for a key. -/
def find (n : ℕ) (slots : ℕ → Option κ) (k : κ) : Option ℕ :=
  ((List.range n).find? fun i => slots i = some k).or ((List.range n).find? fun i => slots i = none)

/-- A key asks for its slot. -/
def ask (n : ℕ) (k : κ) (slots : ℕ → Option κ) : Option ℕ × (ℕ → Option κ) :=
  match find n slots k with
  | some i => (some i, Function.update slots i (some k))
  | none => (none, slots)

/-- The keys that asked, with the slots that they were given. -/
def answers (n : ℕ) : List κ → (ℕ → Option κ) → List (κ × Option ℕ)
  | [], _ => []
  | k :: ks, slots => (k, (ask n k slots).1) :: answers n ks (ask n k slots).2

/-- The keys that were given a slot. -/
def served {ι : Type*} (past : List (κ × Option ι)) : Finset κ :=
  ((past.filter fun e => e.2.isSome).map Prod.fst).toFinset

@[simp] lemma mem_served {ι : Type*} {past : List (κ × Option ι)} {k : κ} :
    k ∈ served past ↔ ∃ i, (k, some i) ∈ past := by
  simp [served, Option.isSome_iff_exists]

variable {n : ℕ} {slots : ℕ → Option κ} {k : κ}

/-- What the table does: it knows the key, gives it a free slot or turns it away. -/
lemma ask_cases (n : ℕ) (k : κ) (slots : ℕ → Option κ) :
    (∃ i < n, slots i = some k ∧ ask n k slots = (some i, slots)) ∨
    ((∀ i < n, slots i ≠ some k) ∧
      ∃ i < n, slots i = none ∧ ask n k slots = (some i, Function.update slots i (some k))) ∨
    ((∀ i < n, slots i ≠ some k) ∧ (∀ i < n, slots i ≠ none) ∧ ask n k slots = (none, slots)) := by
  cases hknown : (List.range n).find? fun i => slots i = some k with
  | some i =>
    obtain ⟨hi, hlt, -⟩ := List.find?_range_eq_some.mp hknown
    have hslot : slots i = some k := by simpa using hi
    have hsame : Function.update slots i (some k) = slots := by
      rw [← hslot, Function.update_eq_self]
    refine Or.inl ⟨i, List.mem_range.mp hlt, hslot, ?_⟩
    simp [ask, find, hknown, hsame]
  | none =>
    have hnone : ∀ i < n, slots i ≠ some k := by
      simpa using List.find?_range_eq_none.mp hknown
    cases hfree : (List.range n).find? fun i => slots i = none with
    | some i =>
      obtain ⟨hi, hlt, -⟩ := List.find?_range_eq_some.mp hfree
      refine Or.inr (Or.inl ⟨hnone, i, List.mem_range.mp hlt, by simpa using hi, ?_⟩)
      simp [ask, find, hknown, hfree]
    | none =>
      refine Or.inr (Or.inr ⟨hnone, by simpa using List.find?_range_eq_none.mp hfree, ?_⟩)
      simp [ask, find, hknown, hfree]

/-! ## What the table remembers -/

/-- The table holds the keys that were given a slot, each in its slot, and it was full when a key
was turned away. -/
structure Remembers (n : ℕ) (past : List (κ × Option ℕ)) (slots : ℕ → Option κ) : Prop where
  given : ∀ i < n, ∀ k, slots i = some k → (k, some i) ∈ past
  holds : ∀ k i, (k, some i) ∈ past → i < n ∧ slots i = some k
  once : ∀ i < n, ∀ j < n, ∀ k, slots i = some k → slots j = some k → i = j
  full : ∀ k, (k, none) ∈ past → ∀ i < n, slots i ≠ none ∧ slots i ≠ some k

omit [DecidableEq κ] in
lemma remembers_nil (h : ∀ i < n, slots i = none) : Remembers n [] slots := by
  refine ⟨?_, by simp, ?_, by simp⟩
  · intro i hi k hk
    rw [h i hi] at hk
    cases hk
  · intro i hi j hj k hk
    rw [h i hi] at hk
    cases hk

omit [DecidableEq κ] in
/-- A key that the table knows gets its slot again. -/
lemma Remembers.known {past : List (κ × Option ℕ)} (h : Remembers n past slots) {i : ℕ}
    (hi : i < n) (hslot : slots i = some k) : Remembers n (past ++ [(k, some i)]) slots := by
  refine ⟨fun j hj k' hk' => List.mem_append_left _ (h.given j hj k' hk'), ?_, h.once, ?_⟩
  · intro k' j hmem
    rcases List.mem_append.mp hmem with hmem | hmem
    · exact h.holds k' j hmem
    · obtain ⟨rfl, rfl⟩ : k' = k ∧ j = i := by simpa using hmem
      exact ⟨hi, hslot⟩
  · intro k' hmem
    exact h.full k' (by simpa using hmem)

omit [DecidableEq κ] in
/-- A new key gets a free slot. -/
lemma Remembers.assigned {past : List (κ × Option ℕ)} (h : Remembers n past slots) {i : ℕ}
    (hi : i < n) (hfree : slots i = none) (hnew : ∀ i < n, slots i ≠ some k) :
    Remembers n (past ++ [(k, some i)]) (Function.update slots i (some k)) := by
  have hslots (j : ℕ) (k' : κ) : Function.update slots i (some k) j = some k' ↔
      j = i ∧ k' = k ∨ j ≠ i ∧ slots j = some k' := by
    by_cases hj : j = i
    · simp [hj, eq_comm]
    · simp [hj]
  refine ⟨?_, ?_, ?_, ?_⟩
  · intro j hj k' hk'
    rcases (hslots j k').mp hk' with ⟨rfl, rfl⟩ | ⟨-, hold⟩
    · simp
    · exact List.mem_append_left _ (h.given j hj k' hold)
  · intro k' j hmem
    rcases List.mem_append.mp hmem with hmem | hmem
    · obtain ⟨hj, hslot⟩ := h.holds k' j hmem
      have hne : j ≠ i := by
        rintro rfl
        rw [hfree] at hslot
        cases hslot
      exact ⟨hj, (hslots j k').mpr (Or.inr ⟨hne, hslot⟩)⟩
    · obtain ⟨rfl, rfl⟩ : k' = k ∧ j = i := by simpa using hmem
      exact ⟨hi, (hslots j k').mpr (Or.inl ⟨rfl, rfl⟩)⟩
  · intro j hj l hl k' hj' hl'
    rcases (hslots j k').mp hj' with ⟨rfl, hk⟩ | ⟨-, hold⟩ <;>
      rcases (hslots l k').mp hl' with ⟨rfl, hk'⟩ | ⟨-, hold'⟩
    · rfl
    · exact absurd (hk ▸ hold') (hnew l hl)
    · exact absurd (hk' ▸ hold) (hnew j hj)
    · exact h.once j hj l hl k' hold hold'
  · intro k' hmem
    have hmem' : (k', none) ∈ past := by simpa using hmem
    exact absurd hfree (h.full k' hmem' i hi).1

omit [DecidableEq κ] in
/-- A new key is turned away from a full table. -/
lemma Remembers.turnedAway {past : List (κ × Option ℕ)} (h : Remembers n past slots)
    (hfull : ∀ i < n, slots i ≠ none) (hnew : ∀ i < n, slots i ≠ some k) :
    Remembers n (past ++ [(k, none)]) slots := by
  refine ⟨fun j hj k' hk' => List.mem_append_left _ (h.given j hj k' hk'), ?_, h.once, ?_⟩
  · intro k' j hmem
    exact h.holds k' j (by simpa using hmem)
  · intro k' hmem i hi
    rcases List.mem_append.mp hmem with hmem | hmem
    · exact h.full k' hmem i hi
    · obtain rfl : k' = k := by simpa using hmem
      exact ⟨hfull i hi, hnew i hi⟩

/-- One key asks. -/
lemma Remembers.ask {past : List (κ × Option ℕ)} (h : Remembers n past slots) (k : κ) :
    Remembers n (past ++ [(k, (ask n k slots).1)]) (ask n k slots).2 := by
  rcases ask_cases n k slots with ⟨i, hi, hslot, heq⟩ | ⟨hnew, i, hi, hfree, heq⟩ |
    ⟨hnew, hfull, heq⟩
  · rw [heq]
    exact h.known hi hslot
  · rw [heq]
    exact h.assigned hi hfree hnew
  · rw [heq]
    exact h.turnedAway hfull hnew

/-- The slots after the keys have asked. -/
def after (n : ℕ) (ks : List κ) (slots : ℕ → Option κ) : ℕ → Option κ :=
  ks.foldl (fun slots k => (SlotTable.ask n k slots).2) slots

/-- Any sequence of keys. -/
lemma Remembers.answers {past : List (κ × Option ℕ)} (h : Remembers n past slots) (ks : List κ) :
    Remembers n (past ++ answers n ks slots) (after n ks slots) := by
  induction ks generalizing past slots with
  | nil => simpa [SlotTable.answers, after] using h
  | cons k ks ih =>
    have hrest := ih (h.ask k)
    rwa [List.append_assoc] at hrest

/-- Every answer was given after those before it. -/
lemma answers_split {ks : List κ} {past later : List (κ × Option ℕ)} {r : Option ℕ}
    (h : answers n ks slots = past ++ (k, r) :: later) :
    ∃ ks', answers n ks' slots = past ∧ r = (ask n k (after n ks' slots)).1 := by
  induction past generalizing ks slots with
  | nil =>
    cases ks with
    | nil => cases h
    | cons k' ks =>
      obtain ⟨heq, -⟩ := List.cons_eq_cons.mp h
      obtain ⟨rfl, rfl⟩ := Prod.mk.inj heq
      exact ⟨[], rfl, rfl⟩
  | cons e past ih =>
    cases ks with
    | nil => cases h
    | cons k' ks =>
      obtain ⟨rfl, hrest⟩ := List.cons_eq_cons.mp h
      obtain ⟨ks', hpast, hr⟩ := ih hrest
      exact ⟨k' :: ks', by rw [answers, hpast], hr⟩

/-! ## The map from keys to slots -/

/-- Equal keys get equal answers, different keys different slots, and a key is turned away only when
`n` keys have a slot. -/
structure InjectiveStable {ι : Type*} (n : ℕ) (answers : List (κ × Option ι)) : Prop where
  stable : ∀ k r r', (k, r) ∈ answers → (k, r') ∈ answers → r = r'
  injective : ∀ k k' i, (k, some i) ∈ answers → (k', some i) ∈ answers → k = k'
  full : ∀ past k later, answers = past ++ (k, none) :: later → (served past).card = n

/-- A full table that holds a key once has given its slots to `n` keys. -/
lemma Remembers.card_served {past : List (κ × Option ℕ)} (h : Remembers n past slots)
    (hfull : ∀ i < n, slots i ≠ none) : (served past).card = n := by
  have hkey : ∀ i : Fin n, ∃ k, slots i = some k := fun i =>
    Option.ne_none_iff_exists'.mp (hfull i i.isLt)
  choose key hkey using hkey
  have hinj : Function.Injective key := by
    intro i j heq
    exact Fin.ext (h.once i i.isLt j j.isLt (key i) (hkey i) (heq ▸ hkey j))
  have himage : served past = Finset.univ.image key := by
    ext k
    simp only [mem_served, Finset.mem_image, Finset.mem_univ, true_and]
    constructor
    · rintro ⟨i, hmem⟩
      obtain ⟨hi, hslot⟩ := h.holds k i hmem
      exact ⟨⟨i, hi⟩, Option.some_inj.mp ((hkey ⟨i, hi⟩).symm.trans hslot)⟩
    · rintro ⟨i, rfl⟩
      exact ⟨i, h.given i i.isLt _ (hkey i)⟩
  rw [himage, Finset.card_image_of_injective _ hinj, Finset.card_univ, Fintype.card_fin]

/-- The map that a table makes whose slots are free at first. -/
theorem injectiveStable_answers (hfree : ∀ i < n, slots i = none) (ks : List κ) :
    InjectiveStable n (answers n ks slots) := by
  have hrun : Remembers n (answers n ks slots) (after n ks slots) :=
    (remembers_nil hfree).answers ks
  constructor
  · intro k r r' hr hr'
    cases r with
    | none =>
      cases r' with
      | none => rfl
      | some i' =>
        obtain ⟨hi, hslot⟩ := hrun.holds k i' hr'
        exact absurd hslot (hrun.full k hr i' hi).2
    | some i =>
      obtain ⟨hi, hslot⟩ := hrun.holds k i hr
      cases r' with
      | none => exact absurd hslot (hrun.full k hr' i hi).2
      | some i' =>
        obtain ⟨hi', hslot'⟩ := hrun.holds k i' hr'
        rw [hrun.once i hi i' hi' k hslot hslot']
  · intro k k' i hk hk'
    exact Option.some_inj.mp ((hrun.holds k i hk).2.symm.trans (hrun.holds k' i hk').2)
  · intro past k later heq
    obtain ⟨ks', rfl, hr⟩ := answers_split heq
    have hpast : Remembers n (answers n ks' slots) (after n ks' slots) :=
      (remembers_nil hfree).answers ks'
    refine hpast.card_served ?_
    rcases ask_cases n k (after n ks' slots) with ⟨i, -, -, hask⟩ | ⟨-, i, -, -, hask⟩ |
      ⟨-, hfull, -⟩
    · rw [hask] at hr
      cases hr
    · rw [hask] at hr
      cases hr
    · exact hfull

/-- The slots that are given are slots of the table. -/
lemma lt_of_mem_answers (hfree : ∀ i < n, slots i = none) {ks : List κ} {i : ℕ}
    (h : (k, some i) ∈ answers n ks slots) : i < n :=
  (((remembers_nil hfree).answers ks).holds k i h).1

lemma served_map {ι ι' : Type*} (f : ι → ι') (past : List (κ × Option ι)) :
    served (past.map fun e => (e.1, e.2.map f)) = served past := by
  ext k
  simp

/-- Slots that are known by distinct names make the same map. -/
lemma InjectiveStable.map {ι ι' : Type*} {f : ι → ι'} {l : List (κ × Option ι)}
    (h : InjectiveStable n l)
    (hf : ∀ k k' i i', (k, some i) ∈ l → (k', some i') ∈ l → f i = f i' → i = i') :
    InjectiveStable n (l.map fun e => (e.1, e.2.map f)) := by
  constructor
  · intro k r r' hr hr'
    obtain ⟨⟨k₁, r₁⟩, hr₁, heq⟩ := List.mem_map.mp hr
    obtain ⟨rfl, rfl⟩ := Prod.mk.inj heq
    obtain ⟨⟨k₂, r₂⟩, hr₂, heq₂⟩ := List.mem_map.mp hr'
    obtain ⟨rfl, rfl⟩ := Prod.mk.inj heq₂
    rw [h.stable _ r₁ r₂ hr₁ hr₂]
  · intro k k' i hk hk'
    obtain ⟨⟨k, r⟩, hr, heq⟩ := List.mem_map.mp hk
    obtain ⟨rfl, hi⟩ := Prod.mk.inj heq
    obtain ⟨⟨k', r'⟩, hr', heq'⟩ := List.mem_map.mp hk'
    obtain ⟨rfl, hi'⟩ := Prod.mk.inj heq'
    obtain ⟨j, rfl, hj⟩ := Option.map_eq_some_iff.mp hi
    obtain ⟨j', rfl, hj'⟩ := Option.map_eq_some_iff.mp hi'
    obtain rfl := hf k k' j j' hr hr' (hj.trans hj'.symm)
    exact h.injective k k' j hr hr'
  · intro past k later heq
    obtain ⟨past', rest, rfl, rfl, hrest⟩ := List.map_eq_append_iff.mp heq
    obtain ⟨⟨k, r⟩, later', rfl, hk, -⟩ := List.map_eq_cons_iff.mp hrest
    obtain ⟨rfl, hr⟩ := Prod.mk.inj hk
    obtain rfl := Option.map_eq_none_iff.mp hr
    rw [served_map]
    exact h.full past' k later' rfl

/-- One key that always gets the same answer. -/
lemma injectiveStable_of_forall_eq {ι : Type*} {l : List (κ × Option ι)} {i : ι}
    (h : ∀ e ∈ l, e = (k, some i)) : InjectiveStable n l := by
  constructor
  · intro k' r r' hr hr'
    exact (Prod.mk.inj (h _ hr)).2.trans (Prod.mk.inj (h _ hr')).2.symm
  · intro k' k'' j hk hk'
    exact (Prod.mk.inj (h _ hk)).1.trans (Prod.mk.inj (h _ hk')).1.symm
  · intro past k' later heq
    cases (Prod.mk.inj (h _ (heq ▸ List.mem_append_right _ List.mem_cons_self))).2

end Lib.SlotTable
