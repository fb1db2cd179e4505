import Mathlib

/-!
# Tables with keys

A table is a list of entries that carry their own key.  Writing an entry replaces what is
there under its key, deleting takes it away.  Two things are needed of sequences of such
operations: the entries of a class that no operation touches are left as they are, and an
entry is in place at the end when the last write to its key was that entry (`Settled`).
-/

namespace Lib.KeyedTable

variable {ε κ : Type*} [DecidableEq κ] (key : ε → κ)

/-- Write an entry. -/
def put (e : ε) (t : List ε) : List ε := t.filter (fun x => key x ≠ key e) ++ [e]

/-- Delete what is under a key. -/
def delete (k : κ) (t : List ε) : List ε := t.filter fun x => key x ≠ k

variable {key} {e x : ε} {t : List ε}

lemma mem_put : x ∈ put key e t ↔ x ∈ t ∧ key x ≠ key e ∨ x = e := by
  simp [put]

/-- A write leaves a class alone that has nothing under its key. -/
lemma filter_put {p : ε → Bool} (h : ∀ x, key x = key e → p x = false) :
    (put key e t).filter p = t.filter p := by
  rw [put, List.filter_append, List.filter_cons_of_neg (by simp [h e rfl]), List.filter_nil,
    List.append_nil, List.filter_filter]
  refine List.filter_congr ?_
  intro x _
  by_cases hx : key x = key e
  · simp [h x hx]
  · simp [hx]

/-- Deleting a list of keys leaves the entries with other keys. -/
lemma foldl_delete_eq_filter {ks : List κ} :
    ks.foldl (fun t k => delete key k t) t = t.filter fun x => key x ∉ ks := by
  induction ks generalizing t with
  | nil => simp
  | cons k ks ih =>
    rw [List.foldl_cons, ih, delete, List.filter_filter]
    refine List.filter_congr ?_
    intro x _
    simp only [List.mem_cons, not_or, ← Bool.decide_and, and_comm]

/-- What a sequence of writes leaves: of each key the last entry. -/
lemma mem_foldl_put {es : List ε} : x ∈ es.foldl (fun t e => put key e t) t ↔
    x ∈ t ∧ key x ∉ es.map key ∨ ∃ i, es[i]? = some x ∧ key x ∉ (es.drop (i + 1)).map key := by
  induction es generalizing t with
  | nil => simp
  | cons e es ih =>
    rw [List.foldl_cons, ih, mem_put, List.map_cons, List.mem_cons, not_or]
    constructor
    · rintro (⟨⟨hx, hne⟩ | rfl, hlater⟩ | ⟨i, hi, hlater⟩)
      · exact Or.inl ⟨hx, hne, hlater⟩
      · exact Or.inr ⟨0, rfl, hlater⟩
      · exact Or.inr ⟨i + 1, hi, hlater⟩
    · rintro (⟨hx, hne, hlater⟩ | ⟨i, hi, hlater⟩)
      · exact Or.inl ⟨Or.inl ⟨hx, hne⟩, hlater⟩
      · cases i with
        | zero =>
          obtain rfl : e = x := by simpa using hi
          exact Or.inl ⟨Or.inr rfl, hlater⟩
        | succ i => exact Or.inr ⟨i, hi, hlater⟩

lemma foldl_put_of_nodup {es : List ε} (hes : (es.map key).Nodup)
    (ht : ∀ x ∈ t, key x ∉ es.map key) : es.foldl (fun t e => put key e t) t = t ++ es := by
  induction es generalizing t with
  | nil => simp
  | cons e es ih =>
    rw [List.map_cons, List.nodup_cons] at hes
    have hkeep : put key e t = t ++ [e] := by
      rw [put, List.filter_eq_self.mpr]
      exact fun x hx => decide_eq_true fun heq => ht x hx (heq ▸ List.mem_cons_self)
    rw [List.foldl_cons, ih hes.2, hkeep, List.append_assoc, List.singleton_append]
    intro x hx
    rw [hkeep] at hx
    rcases List.mem_append.mp hx with hx | hx
    · exact fun hmem => ht x hx (List.mem_cons_of_mem _ hmem)
    · exact (List.mem_singleton.mp hx) ▸ hes.1

/-! ## Dictionaries -/

section Dictionaries

variable {α β : Type*} [BEq α] [LawfulBEq α] {d : List (α × β)} {k : α} {a : β}

lemma mem_of_lookup_eq_some (h : d.lookup k = some a) : (k, a) ∈ d := by
  obtain ⟨l₁, l₂, rfl, -⟩ := List.lookup_eq_some_iff.mp h
  simp

lemma lookup_eq_some_of_mem (hd : (d.map Prod.fst).Nodup) (h : (k, a) ∈ d) :
    d.lookup k = some a := by
  induction d with
  | nil => cases h
  | cons e d ih =>
    rw [List.map_cons, List.nodup_cons] at hd
    rcases List.mem_cons.mp h with rfl | h
    · exact List.lookup_cons_self
    · have hne : k ≠ e.1 := fun heq => hd.1 (heq ▸ List.mem_map_of_mem h)
      rw [List.lookup_cons, beq_eq_false_iff_ne.mpr hne]
      exact ih hd.2 h

end Dictionaries

/-! ## Stores of tables -/

variable {ν : Type*} [DecidableEq ν]

/-- Write an entry into the table of a node. -/
def putAt (key : ε → κ) (s : ν → List ε) (w : ν × ε) : ν → List ε :=
  Function.update s w.1 (put key w.2 (s w.1))

lemma putAt_same (s : ν → List ε) (w : ν × ε) : putAt key s w w.1 = put key w.2 (s w.1) :=
  Function.update_self ..

lemma putAt_of_ne {s : ν → List ε} {w : ν × ε} {b : ν} (h : b ≠ w.1) :
    putAt key s w b = s b :=
  Function.update_of_ne h _ _

/-- What a write leaves in the table of a node. -/
lemma mem_putAt {s : ν → List ε} {w : ν × ε} {b : ν} (h : x ∈ putAt key s w b) :
    x ∈ s b ∨ b = w.1 ∧ x = w.2 := by
  rcases eq_or_ne b w.1 with rfl | hb
  · rw [putAt_same, mem_put] at h
    rcases h with ⟨hx, -⟩ | hx
    · exact Or.inl hx
    · exact Or.inr ⟨rfl, hx⟩
  · rw [putAt_of_ne hb] at h
    exact Or.inl h

lemma foldl_putAt_of_ne {ws : List (ν × ε)} {b : ν} (h : ∀ w ∈ ws, w.1 ≠ b) (s : ν → List ε) :
    ws.foldl (putAt key) s b = s b := by
  induction ws generalizing s with
  | nil => rfl
  | cons w ws ih =>
    rw [List.foldl_cons, ih fun v hv => h v (List.mem_cons_of_mem _ hv),
      putAt_of_ne (h w List.mem_cons_self).symm]

lemma mem_foldl_putAt {s : ν → List ε} {ws : List (ν × ε)} {b : ν}
    (h : x ∈ ws.foldl (putAt key) s b) : x ∈ s b ∨ (b, x) ∈ ws := by
  induction ws generalizing s with
  | nil => exact Or.inl h
  | cons w ws ih =>
    rcases ih h with hx | hx
    · rcases mem_putAt hx with hx | ⟨rfl, rfl⟩
      · exact Or.inl hx
      · exact Or.inr List.mem_cons_self
    · exact Or.inr (List.mem_cons_of_mem _ hx)

/-- The keys in a table after a sequence of writes. -/
lemma exists_key_foldl_putAt {P : κ → Prop} {ws : List (ν × ε)} {s : ν → List ε} {b : ν} :
    (∃ x ∈ ws.foldl (putAt key) s b, P (key x)) ↔
      (∃ x ∈ s b, P (key x)) ∨ ∃ w ∈ ws, w.1 = b ∧ P (key w.2) := by
  induction ws generalizing s with
  | nil => simp
  | cons w ws ih =>
    rw [List.foldl_cons, ih, List.exists_mem_cons_iff, ← or_assoc]
    refine or_congr_left ?_
    rcases eq_or_ne w.1 b with rfl | hb
    · rw [putAt_same]
      constructor
      · rintro ⟨x, hx, hP⟩
        rcases mem_put.mp hx with ⟨hx, -⟩ | rfl
        · exact Or.inl ⟨x, hx, hP⟩
        · exact Or.inr ⟨rfl, hP⟩
      · rintro (⟨x, hx, hP⟩ | ⟨-, hP⟩)
        · by_cases hkey : key x = key w.2
          · exact ⟨w.2, mem_put.mpr (Or.inr rfl), hkey ▸ hP⟩
          · exact ⟨x, mem_put.mpr (Or.inl ⟨hx, hkey⟩), hP⟩
        · exact ⟨w.2, mem_put.mpr (Or.inr rfl), hP⟩
    · simp [putAt_of_ne hb.symm, hb]

/-- Writes of another class leave a class alone in every table. -/
lemma filter_foldl_putAt {p : ε → Bool} {ws : List (ν × ε)}
    (h : ∀ w ∈ ws, ∀ x, key x = key w.2 → p x = false) (s : ν → List ε) (b : ν) :
    (ws.foldl (putAt key) s b).filter p = (s b).filter p := by
  induction ws generalizing s with
  | nil => rfl
  | cons w ws ih =>
    rw [List.foldl_cons, ih fun v hv => h v (List.mem_cons_of_mem _ hv)]
    rcases eq_or_ne b w.1 with rfl | hb
    · rw [putAt_same, filter_put (h w List.mem_cons_self)]
    · rw [putAt_of_ne hb]

/-- An entry is in the table and nothing else is under its key. -/
def Settled (key : ε → κ) (t : List ε) (e : ε) : Prop := e ∈ t ∧ ∀ x ∈ t, key x = key e → x = e

lemma settled_put (e : ε) (t : List ε) : Settled key (put key e t) e := by
  refine ⟨mem_put.mpr (Or.inr rfl), ?_⟩
  intro x hx hkey
  rcases mem_put.mp hx with ⟨-, hne⟩ | hx
  · exact absurd hkey hne
  · exact hx

lemma Settled.put_of_ne (h : Settled key t e) (hne : key x ≠ key e) :
    Settled key (put key x t) e := by
  refine ⟨mem_put.mpr (Or.inl ⟨h.1, Ne.symm hne⟩), ?_⟩
  intro y hy hkey
  rcases mem_put.mp hy with ⟨hy, -⟩ | rfl
  · exact h.2 y hy hkey
  · exact absurd hkey hne

/-- Writes under the key of an entry that all write this entry leave it in place. -/
lemma Settled.foldl_putAt {s : ν → List ε} {b : ν} (h : Settled key (s b) e) {ws : List (ν × ε)}
    (hws : ∀ w ∈ ws, w.1 = b → key w.2 = key e → w.2 = e) :
    Settled key (ws.foldl (putAt key) s b) e := by
  induction ws generalizing s with
  | nil => exact h
  | cons w ws ih =>
    refine ih ?_ fun v hv => hws v (List.mem_cons_of_mem _ hv)
    rcases eq_or_ne b w.1 with rfl | hb
    · rw [putAt_same]
      by_cases hkey : key w.2 = key e
      · rw [hws w List.mem_cons_self rfl hkey]
        exact settled_put e _
      · exact h.put_of_ne hkey
    · rw [putAt_of_ne hb]
      exact h

/-- And they put it in place when there is one. -/
lemma settled_foldl_putAt {b : ν} {ws : List (ν × ε)} (hmem : (b, e) ∈ ws)
    (hws : ∀ w ∈ ws, w.1 = b → key w.2 = key e → w.2 = e) (s : ν → List ε) :
    Settled key (ws.foldl (putAt key) s b) e := by
  induction ws generalizing s with
  | nil => cases hmem
  | cons w ws ih =>
    have hrest : ∀ v ∈ ws, v.1 = b → key v.2 = key e → v.2 = e :=
      fun v hv => hws v (List.mem_cons_of_mem _ hv)
    rcases List.mem_cons.mp hmem with rfl | hmem
    · have hput : Settled key (putAt key s (b, e) b) e := by
        rw [putAt_same]
        exact settled_put e _
      exact hput.foldl_putAt hrest
    · exact ih hmem hrest _

/-- The last write under a key puts its entry in place. -/
lemma settled_foldl_putAt_append {b : ν} {pre post : List (ν × ε)}
    (hpost : ∀ w ∈ post, w.1 = b → key w.2 ≠ key e) (s : ν → List ε) :
    Settled key ((pre ++ (b, e) :: post).foldl (putAt key) s b) e := by
  rw [List.foldl_append, List.foldl_cons]
  have hput : Settled key (putAt key (pre.foldl (putAt key) s) (b, e) b) e := by
    rw [putAt_same]
    exact settled_put e _
  exact hput.foldl_putAt fun w hw hb hkey => absurd hkey (hpost w hw hb)

/-- Under a key that was written there is one of the entries that were. -/
lemma exists_mem_foldl_putAt {b : ν} {ws : List (ν × ε)} (h : (b, e) ∈ ws) (s : ν → List ε) :
    ∃ e', (b, e') ∈ ws ∧ key e' = key e ∧ e' ∈ ws.foldl (putAt key) s b := by
  induction ws using List.reverseRecOn with
  | nil => cases h
  | append_singleton ws w ih =>
    rw [List.foldl_append, List.foldl_cons, List.foldl_nil]
    by_cases hw : w.1 = b ∧ key w.2 = key e
    · obtain ⟨rfl, hkey⟩ := hw
      refine ⟨w.2, by simp, hkey, ?_⟩
      rw [putAt_same]
      exact mem_put.mpr (Or.inr rfl)
    · have hold : (b, e) ∈ ws := by
        rcases List.mem_append.mp h with h | h
        · exact h
        · exact absurd ⟨congrArg Prod.fst (List.mem_singleton.mp h).symm,
            congrArg (fun v => key v.2) (List.mem_singleton.mp h).symm⟩ hw
      obtain ⟨e', hmem, hkey, he'⟩ := ih hold
      refine ⟨e', List.mem_append_left _ hmem, hkey, ?_⟩
      rcases eq_or_ne b w.1 with rfl | hb
      · rw [putAt_same]
        exact mem_put.mpr (Or.inl ⟨he', fun heq => hw ⟨rfl, heq.symm.trans hkey⟩⟩)
      · rwa [putAt_of_ne hb]

end Lib.KeyedTable
