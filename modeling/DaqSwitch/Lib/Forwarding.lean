import Mathlib

/-!
# Forwarding by rule tables

Every node of a network has a table of rules with priorities.  A packet takes one of the
matching rules of the highest priority, and which one is up to the switch: `Switching` is any
such choice.  `Delivers` follows a packet from place to place until it arrives.
-/

namespace Lib.Forwarding

variable {ρ η ν : Type*}

section Rules

variable (priority : ρ → ℕ) (Matches : ρ → η → Prop)

/-- A matching rule of the highest priority. -/
structure Best (table : List ρ) (h : η) (r : ρ) : Prop where
  mem : r ∈ table
  hit : Matches r h
  priority : ∀ r' ∈ table, Matches r' h → priority r' ≤ priority r

/-- A choice of rules by the switches: the best, or one of the best if there are several. -/
structure Switching (table : ν → List ρ) where
  pick : ν → η → Option ρ
  best : ∀ b h r, pick b h = some r → Best priority Matches (table b) h r
  miss : ∀ b h, pick b h = none → ∀ r ∈ table b, ¬ Matches r h

variable {priority Matches} {table : ν → List ρ}

/-- What holds of all matching rules from a priority on, one of which matches, holds of the
rule that is picked. -/
lemma Switching.exists_pick (S : Switching priority Matches table) {b : ν} {h : η} {r : ρ}
    (hr : r ∈ table b) (hhit : Matches r h) {P : ρ → Prop}
    (hP : ∀ r' ∈ table b, Matches r' h → priority r ≤ priority r' → P r') :
    ∃ r', S.pick b h = some r' ∧ r' ∈ table b ∧ P r' := by
  cases hpick : S.pick b h with
  | none => exact absurd hhit (S.miss b h hpick r hr)
  | some r' =>
    have hbest := S.best b h r' hpick
    exact ⟨r', rfl, hbest.mem, hP r' hbest.mem hbest.hit (hbest.priority r hr hhit)⟩

/-- Where there is a best rule, one of them is picked. -/
lemma Switching.exists_best (S : Switching priority Matches table) {b : ν} {h : η} {r : ρ}
    (hr : Best priority Matches (table b) h r) :
    ∃ r', S.pick b h = some r' ∧ Best priority Matches (table b) h r' := by
  cases hpick : S.pick b h with
  | none => exact absurd hr.hit (S.miss b h hpick r hr.mem)
  | some r' => exact ⟨r', rfl, S.best b h r' hpick⟩

/-- The switches that take the first of the best rules in the table. -/
def Switching.first [∀ r h, Decidable (Matches r h)] : Switching priority Matches table where
  pick b h := ((table b).filter fun r => Matches r h).argmax priority
  best b h r hr := by
    obtain ⟨hmem, hhit⟩ := List.mem_filter.mp (List.argmax_mem hr)
    refine ⟨hmem, of_decide_eq_true hhit, ?_⟩
    intro r' hr' hhit'
    exact List.le_of_mem_argmax (List.mem_filter.mpr ⟨hr', decide_eq_true hhit'⟩) hr
  miss b h hnone r hr hhit := by
    have hmem : r ∈ (table b).filter fun r => Matches r h :=
      List.mem_filter.mpr ⟨hr, decide_eq_true hhit⟩
    rw [List.argmax_eq_none.mp hnone] at hmem
    cases hmem

/-- The switches that take another one of the best rules in one case. -/
def Switching.prefer [DecidableEq ν] [DecidableEq η] (S : Switching priority Matches table)
    {b : ν} {h : η} {r : ρ} (hr : Best priority Matches (table b) h r) :
    Switching priority Matches table where
  pick b' h' := if b' = b ∧ h' = h then some r else S.pick b' h'
  best b' h' r' hr' := by
    split at hr'
    · next heq =>
      obtain ⟨rfl, rfl⟩ := heq
      exact Option.some_inj.mp hr' ▸ hr
    · exact S.best b' h' r' hr'
  miss b' h' hnone := by
    split at hnone
    · cases hnone
    · exact S.miss b' h' hnone

lemma Switching.prefer_pick [DecidableEq ν] [DecidableEq η] (S : Switching priority Matches table)
    {b : ν} {h : η} {r : ρ} (hr : Best priority Matches (table b) h r) :
    (S.prefer hr).pick b h = some r := if_pos ⟨rfl, rfl⟩

end Rules

section Paths

variable {π : Type*} {next : π → Option π}

/-- A packet goes from a place to a goal through the places of a list. -/
inductive Delivers (next : π → Option π) (goal : π) : π → List π → Prop
  | arrive : Delivers next goal goal [goal]
  | hop {l l' : π} {path : List π} (hstep : next l = some l')
      (hrest : Delivers next goal l' path) : Delivers next goal l (l :: path)

variable {goal l l' : π} {path : List π}

/-- A path that does not begin at the goal begins with the next step. -/
lemma Delivers.of_ne (h : Delivers next goal l path) (hne : l ≠ goal) :
    ∃ l' path', next l = some l' ∧ path = l :: path' ∧ Delivers next goal l' path' := by
  cases h with
  | arrive => exact absurd rfl hne
  | hop hstep hrest => exact ⟨_, _, hstep, rfl, hrest⟩

/-- With the step known. -/
lemma Delivers.step (h : Delivers next goal l path) (hne : l ≠ goal) (hstep : next l = some l') :
    ∃ path', path = l :: path' ∧ Delivers next goal l' path' := by
  obtain ⟨l'', path', hstep', rfl, hrest⟩ := h.of_ne hne
  rw [hstep, Option.some_inj] at hstep'
  exact ⟨path', rfl, hstep' ▸ hrest⟩

/-- The places after a known step. -/
lemma Delivers.step_iff (hne : l ≠ goal) (hstep : next l = some l') :
    Delivers next goal l path ↔ ∃ rest, path = l :: rest ∧ Delivers next goal l' rest := by
  refine ⟨fun h => h.step hne hstep, ?_⟩
  rintro ⟨rest, rfl, hrest⟩
  exact .hop hstep hrest

/-- A packet that is lost is not delivered. -/
lemma Delivers.not_of_none (hnone : next l = none) (hne : l ≠ goal) :
    ¬ Delivers next goal l path := by
  intro h
  obtain ⟨l', path', hstep, -, -⟩ := h.of_ne hne
  rw [hnone] at hstep
  cases hstep

lemma Delivers.head_mem (h : Delivers next goal l path) : l ∈ path := by
  cases h with
  | arrive => exact List.mem_cons_self
  | hop _ _ => exact List.mem_cons_self

end Paths

end Lib.Forwarding
