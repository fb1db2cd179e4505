import DaqSwitch.Lib.CyclicScan
import DaqSwitch.Lib.Machine

/-!
# Round robin over groups

Slots fall into groups.  A request names a group and goes to the next slot of this group that
is not full, behind the slot of the request before, whatever the group of that was.  Requests
that come in one block for each group keep the loads within the groups balanced.  When a group
comes back after a request for another one, the search starts anew at the first slot of the
group wherever its slots lie together, and the group is left unbalanced if it has more slots
than requests.
-/

namespace Lib

open Machine CyclicScan

/-- How many slots there are, how many requests a slot takes, the group of a slot, and where
the search goes on behind a slot. -/
structure RoundRobin (γ : Type*) where
  slots : ℕ
  cap : ℕ
  group : ℕ → Option γ
  resume : ℕ → ℕ

namespace RoundRobin

structure State where
  load : ℕ → ℕ
  prev : ℕ

variable {γ : Type*} [DecidableEq γ] (R : RoundRobin γ)

def hasRoom (g : γ) (s : State) (l : ℕ) : Bool :=
  decide (R.group l = some g) && decide (s.load l < R.cap)

def next (g : γ) (s : State) : Option ℕ := scan R.slots s.prev (R.hasRoom g s)

/-- One request. -/
def step (g : γ) (s : State) : Option State :=
  (R.next g s).map fun l => ⟨Function.update s.load l (s.load l + 1), R.resume l⟩

def members (g : γ) : Finset ℕ := (Finset.range R.slots).filter fun l => R.group l = some g

/-- The load of a group. -/
def total (g : γ) (s : State) : ℕ := ∑ l ∈ R.members g, s.load l

def Balanced (s : State) : Prop :=
  ∀ g, ∀ l ∈ R.members g, ∀ l' ∈ R.members g, s.load l ≤ s.load l' + 1

/-- The slot that is next has no more than an even share of the load of its group. -/
def Share (g : γ) (s : State) : Prop :=
  ∀ l ∈ R.next g s, s.load l * (R.members g).card ≤ R.total g s

variable {R} {g g' : γ} {l l' : ℕ} {s t : State}

lemma mem_members : l ∈ R.members g ↔ l < R.slots ∧ R.group l = some g := by
  rw [members, Finset.mem_filter, Finset.mem_range]

lemma next_eq_some (h : R.next g s = some l) : l ∈ R.members g ∧ s.load l < R.cap := by
  obtain ⟨hlt, hroom⟩ := scan_some h
  obtain ⟨hgroup, hload⟩ := (Bool.and_eq_true _ _).mp hroom
  exact ⟨mem_members.mpr ⟨hlt, of_decide_eq_true hgroup⟩, of_decide_eq_true hload⟩

/-- A slot belongs to one group. -/
lemma eq_of_mem_members (h : l ∈ R.members g) (h' : l ∈ R.members g') : g = g' :=
  Option.some_inj.mp ((mem_members.mp h).2.symm.trans (mem_members.mp h').2)

/-! ## One request -/

/-- What a request changes. -/
lemma step_eq_some (h : R.step g s = some t) : ∃ l, R.next g s = some l ∧
    t.load l = s.load l + 1 ∧ (∀ x ≠ l, t.load x = s.load x) ∧ t.prev = R.resume l := by
  obtain ⟨l, hnext, rfl⟩ := Option.map_eq_some_iff.mp h
  exact ⟨l, hnext, Function.update_self .., fun x hx => Function.update_of_ne hx .., rfl⟩

lemma exists_step (h : ∃ l, R.next g s = some l) : ∃ t, R.step g s = some t := by
  obtain ⟨l, hl⟩ := h
  exact ⟨_, Option.map_eq_some_iff.mpr ⟨l, hl, rfl⟩⟩

/-- In a balanced group, a slot with no more than an even share has the smallest load. -/
lemma le_of_share (hs : R.Balanced s) (hshare : s.load l * (R.members g).card ≤ R.total g s) :
    ∀ l' ∈ R.members g, s.load l ≤ s.load l' := by
  by_contra hsmaller
  push Not at hsmaller
  obtain ⟨l', hl', hlt⟩ := hsmaller
  have hsum : R.total g s < ∑ _x ∈ R.members g, s.load l := by
    refine Finset.sum_lt_sum ?_ ⟨l', hl', hlt⟩
    intro x hx
    exact (hs g x hx l' hl').trans hlt
  rw [Finset.sum_const, smul_eq_mul, mul_comm] at hsum
  omega

/-- The smallest load is no more than an even share. -/
lemma share_of_le (h : ∀ l' ∈ R.members g, s.load l ≤ s.load l') :
    s.load l * (R.members g).card ≤ R.total g s := by
  have hsum := Finset.card_nsmul_le_sum _ _ _ h
  rwa [smul_eq_mul, mul_comm] at hsum

/-- The step lemma: a turn keeps the balance if and only if it goes to a slot with no more than an
even share. -/
lemma balanced_step_iff (hs : R.Balanced s) (h : R.step g s = some t) :
    R.Balanced t ↔ R.Share g s := by
  obtain ⟨l, hnext, hself, hother, -⟩ := step_eq_some h
  have hl := (next_eq_some hnext).1
  have hshare : R.Share g s ↔ ∀ l' ∈ R.members g, s.load l ≤ s.load l' := by
    rw [Share, hnext]
    simp only [Option.mem_some_iff, forall_eq']
    exact ⟨le_of_share hs, share_of_le⟩
  rw [hshare]
  constructor
  · intro ht l' hl'
    rcases eq_or_ne l' l with rfl | hne
    · exact le_rfl
    · have := ht g l hl l' hl'
      rw [hself, hother l' hne] at this
      omega
  · intro hmin g' x hx x' hx'
    have hle : s.load x' ≤ t.load x' := by
      rcases eq_or_ne x' l with rfl | hne
      · rw [hself]
        exact Nat.le_succ _
      · rw [hother x' hne]
    rcases eq_or_ne x l with rfl | hne
    · obtain rfl := eq_of_mem_members hl hx
      have := hmin x' hx'
      rw [hself]
      omega
    · have := hs g' x hx x' hx'
      rw [hother x hne]
      omega

/-! ## Room -/

lemma total_step (h : R.step g s = some t) (g' : γ) :
    R.total g' t = R.total g' s + if g = g' then 1 else 0 := by
  obtain ⟨l, hnext, hself, hother, -⟩ := step_eq_some h
  have hl := (next_eq_some hnext).1
  split
  · next heq =>
    subst heq
    have hrest : ∑ x ∈ (R.members g).erase l, t.load x = ∑ x ∈ (R.members g).erase l, s.load x :=
      Finset.sum_congr rfl fun x hx => hother x (Finset.ne_of_mem_erase hx)
    rw [total, total, ← Finset.add_sum_erase _ t.load hl, ← Finset.add_sum_erase _ s.load hl,
      hself, hrest]
    exact Nat.add_right_comm _ _ _
  · next hne =>
    refine Finset.sum_congr rfl fun x hx => hother x ?_
    rintro rfl
    exact hne (eq_of_mem_members hl hx)

/-- A group that is not full has a slot that is next. -/
lemma exists_next (h : R.total g s < R.cap * (R.members g).card) : ∃ l, R.next g s = some l := by
  refine Option.ne_none_iff_exists'.mp ?_
  intro hnone
  have hfull : ∀ l ∈ R.members g, R.cap ≤ s.load l := by
    intro l hl
    obtain ⟨hlt, hgroup⟩ := mem_members.mp hl
    have := scan_eq_none_iff.mp hnone l hlt
    simpa [hasRoom, hgroup] using this
  have hsum := Finset.card_nsmul_le_sum _ _ _ hfull
  rw [smul_eq_mul, mul_comm] at hsum
  exact absurd h (Nat.not_lt.mpr hsum)

/-- Requests that fit into their groups are all served. -/
lemma exists_run {gs : List γ}
    (h : ∀ g ∈ gs, R.total g s + gs.count g ≤ R.cap * (R.members g).card) :
    ∃ t, run R.step gs s = some t := by
  have hstep (g : γ) (gs : List γ) (s : State)
      (hI : ∀ g' ∈ g :: gs, R.total g' s + (g :: gs).count g' ≤ R.cap * (R.members g').card) :
      ∃ t, R.step g s = some t ∧
        ∀ g' ∈ gs, R.total g' t + gs.count g' ≤ R.cap * (R.members g').card := by
    have hroom := hI g List.mem_cons_self
    rw [List.count_cons_self] at hroom
    obtain ⟨t, ht⟩ := exists_step (exists_next (R := R) (g := g) (s := s) (by omega))
    refine ⟨t, ht, ?_⟩
    intro g' hg'
    have hcount := hI g' (List.mem_cons_of_mem _ hg')
    rw [List.count_cons] at hcount
    rw [total_step ht]
    by_cases heq : g = g'
    · rw [if_pos heq]
      rw [if_pos (by simpa using heq)] at hcount
      omega
    · rw [if_neg heq]
      omega
  obtain ⟨t, ht, -⟩ := run_total_rest
    (I := fun gs s => ∀ g ∈ gs, R.total g s + gs.count g ≤ R.cap * (R.members g).card) hstep h
  exact ⟨t, ht⟩

/-! ## Requests in blocks -/

/-- Behind the slot of the last request, the loads of a group do not decrease. -/
def InOrder (R : RoundRobin γ) (g : γ) (s : State) : Prop :=
  ∀ i j, i ≤ j → j < R.slots → visit R.slots s.prev i ∈ R.members g →
    visit R.slots s.prev j ∈ R.members g →
      s.load (visit R.slots s.prev i) ≤ s.load (visit R.slots s.prev j)

/-- In order, the slot that is next is the first of its group, and has the smallest load. -/
lemma InOrder.share (ho : R.InOrder g s) : R.Share g s := by
  intro l hnext
  obtain ⟨i, hi, rfl, hroom, hfirst⟩ := scan_eq_some_iff.mp hnext
  obtain ⟨hl, hcap⟩ := next_eq_some hnext
  refine share_of_le ?_
  intro l' hl'
  obtain ⟨j, hj, rfl⟩ : ∃ j < R.slots, visit R.slots s.prev j = l' :=
    exists_visit_eq (mem_members.mp hl').1
  rcases Nat.lt_or_ge j i with hji | hij
  · -- a slot of the group before it would be full
    have hfull := hfirst j hji
    simp only [hasRoom, (mem_members.mp hl').2, decide_true, Bool.true_and,
      decide_eq_false_iff_not] at hfull
    omega
  · exact ho i j hij hj hl hl'

/-- Requests for one group keep its order. -/
lemma InOrder.step (hresume : ∀ l < R.slots, R.resume l = l) (hs : R.Balanced s)
    (ho : R.InOrder g s) (h : R.step g s = some t) : R.InOrder g t := by
  obtain ⟨l, hnext, hself, hother, hprev⟩ := step_eq_some h
  obtain ⟨k, hk, rfl, -, hfirst⟩ := scan_eq_some_iff.mp hnext
  obtain ⟨hl, hcap⟩ := next_eq_some hnext
  rw [hresume _ (mem_members.mp hl).1] at hprev
  -- no slot of the group comes before the one that is next
  have hbefore : ∀ i ≤ k, visit R.slots s.prev i ∈ R.members g → i = k := by
    intro i hik hi
    by_contra hne
    have hlt : i < k := by omega
    have hfull := hfirst i hlt
    simp only [hasRoom, (mem_members.mp hi).2, decide_true, Bool.true_and,
      decide_eq_false_iff_not] at hfull
    have := ho i k hik hk hi hl
    omega
  -- seen from its start, the new search ends with the slot that was next
  have hlater : ∀ p < R.slots, k < p →
      t.load (visit R.slots s.prev p) = s.load (visit R.slots s.prev p) := by
    intro p hp hkp
    refine hother _ ?_
    intro heq
    exact absurd (visit_inj hp hk heq) (by omega)
  have hwrap : ∀ p, R.slots ≤ p → p ≤ k + R.slots → visit R.slots s.prev p ∈ R.members g →
      visit R.slots s.prev p = visit R.slots s.prev k := by
    intro p hp hpk hmem
    obtain ⟨p, rfl⟩ : ∃ q, p = q + R.slots := ⟨p - R.slots, by omega⟩
    rw [visit_add_slots] at hmem ⊢
    rw [hbefore p (by omega) hmem]
  intro i j hij hj hi hj'
  rw [hprev, visit_visit] at hi hj'
  rw [hprev, visit_visit, visit_visit]
  rcases Nat.lt_or_ge (k + j + 1) R.slots with hq | hq
  · rw [hlater _ (by omega) (by omega), hlater _ hq (by omega)]
    exact ho _ _ (by omega) hq hi hj'
  · rw [hwrap _ hq (by omega) hj', hself]
    rcases Nat.lt_or_ge (k + i + 1) R.slots with hp | hp
    · rw [hlater _ hp (by omega)]
      exact hs g _ hi _ hl
    · rw [hwrap _ hp (by omega) hi, hself]

/-- The requests come back to a group after one for another group. -/
def Returns (g : γ) (gs : List γ) : Prop :=
  ∃ past, past ++ [g] <+: gs ∧ past.getLast? ≠ some g ∧ g ∈ past

/-- The groups with several slots. -/
def Several (R : RoundRobin γ) (g : γ) : Prop := 2 ≤ (R.members g).card

/-- What holds after requests in blocks. -/
structure Served (R : RoundRobin γ) (gs : List γ) (s : State) : Prop where
  balanced : R.Balanced s
  unused : ∀ g ∉ gs, ∀ l ∈ R.members g, s.load l = 0
  inOrder : ∀ g, gs.getLast? = some g → R.InOrder g s

/-- The step lemma for blocks. -/
lemma Served.step {gs : List γ} (hresume : ∀ l < R.slots, R.resume l = l)
    (hs : R.Served gs s) (hg : R.Several g → gs.getLast? = some g ∨ g ∉ gs)
    (h : R.step g s = some t) : R.Served (gs ++ [g]) t := by
  have ho : R.InOrder g s := by
    by_cases hone : (R.members g).card ≤ 1
    · rintro i j - - hi hj
      rw [Finset.card_le_one.mp hone _ hi _ hj]
    · rcases hg (not_le.mp hone) with hg | hg
      · exact hs.inOrder g hg
      · -- a group that had no request yet has no load
        rintro i j - - hi hj
        rw [hs.unused g hg _ hi, hs.unused g hg _ hj]
  refine ⟨(balanced_step_iff hs.balanced h).mpr ho.share, ?_, ?_⟩
  · intro g' hg' l hl
    obtain ⟨l', hnext, -, hother, -⟩ := step_eq_some h
    have hne : l ≠ l' := by
      rintro rfl
      obtain rfl := eq_of_mem_members hl (next_eq_some hnext).1
      exact hg' (by simp)
    rw [hother l hne]
    exact hs.unused g' (fun hmem => hg' (List.mem_append_left _ hmem)) l hl
  · intro g' hg'
    rw [List.getLast?_concat, Option.some_inj] at hg'
    exact hg' ▸ ho.step hresume hs.balanced h

/-- The run lemma for blocks. -/
lemma run_served {gs : List γ} (hresume : ∀ l < R.slots, R.resume l = l)
    (hgs : ∀ g, R.Several g → ¬ Returns g gs) (hs : R.Served [] s)
    (h : run R.step gs s = some t) : R.Served gs t := by
  induction gs using List.reverseRecOn generalizing t with
  | nil =>
    obtain rfl : s = t := by simpa using h
    exact hs
  | append_singleton gs g ih =>
    rw [run_append, Option.bind_eq_some_iff] at h
    obtain ⟨s₁, h₁, h₂⟩ := h
    rw [run_singleton] at h₂
    have hprefix : ∀ g', R.Several g' → ¬ Returns g' gs := by
      rintro g' hg' ⟨past, hpast, hlast⟩
      exact hgs g' hg' ⟨past, hpast.trans (List.prefix_append gs [g]), hlast⟩
    have hlast : R.Several g → gs.getLast? = some g ∨ g ∉ gs := by
      intro hg
      by_contra hreturn
      push Not at hreturn
      exact hgs g hg ⟨gs, List.prefix_refl _, hreturn⟩
    exact (ih hprefix h₁).step hresume hlast h₂

/-- Requests in the order of their groups do not come back. -/
lemma not_returns_of_pairwise_le {δ : Type*} [PartialOrder δ] {gs : List δ}
    (h : gs.Pairwise (· ≤ ·)) (g : δ) : ¬ Returns g gs := by
  rintro ⟨past, ⟨rest, rfl⟩, hlast, hmem⟩
  obtain ⟨hpast, -, hle⟩ := List.pairwise_append.mp (List.pairwise_append.mp h).1
  rcases List.eq_nil_or_concat past with rfl | ⟨front, last, rfl⟩
  · cases hmem
  · rw [List.concat_eq_append] at hpast hle hlast hmem
    have hne : last ≠ g := by simpa using hlast
    have hfront : g ∈ front := by simpa [hne.symm] using hmem
    have hlastle : last ≤ g := hle last (by simp) g (by simp)
    exact hne (hlastle.antisymm ((List.pairwise_append.mp hpast).2.2 g hfront last (by simp)))

/-! ## Requests that come back -/

/-- The slots of other groups. -/
def others (R : RoundRobin γ) (g : γ) : Finset ℕ :=
  (Finset.range R.slots).filter fun l => R.group l ≠ none ∧ R.group l ≠ some g

lemma mem_others (hl : l ∈ R.members g') (hne : g' ≠ g) : l ∈ R.others g := by
  obtain ⟨hlt, hgroup⟩ := mem_members.mp hl
  refine Finset.mem_filter.mpr ⟨Finset.mem_range.mpr hlt, ?_, ?_⟩
  · rw [hgroup]
    exact Option.some_ne_none g'
  · rw [hgroup, Ne, Option.some_inj]
    exact hne

/-- The slots of a group lie together: behind the start, and behind every slot of another group,
slot `f` is the first of them. -/
def Leads (R : RoundRobin γ) (g : γ) (start f : ℕ) : Prop :=
  ∀ p ∈ insert start (R.others g),
    scan R.slots p (fun l => decide (R.group l = some g)) = some f

instance (R : RoundRobin γ) (g : γ) (start f : ℕ) : Decidable (R.Leads g start f) :=
  inferInstanceAs (Decidable (∀ p ∈ insert start (R.others g), _ = _))

lemma Leads.mem {start f : ℕ} (h : R.Leads g start f) : f ∈ R.members g := by
  obtain ⟨hlt, hgroup⟩ := scan_some (h start (Finset.mem_insert_self _ _))
  exact mem_members.mpr ⟨hlt, of_decide_eq_true hgroup⟩

lemma Leads.next {start f : ℕ} (h : R.Leads g start f)
    (hprev : s.prev ∈ insert start (R.others g)) (hcap : s.load f < R.cap) :
    R.next g s = some f := by
  obtain ⟨i, hi, hvisit, hgroup, hfirst⟩ := scan_eq_some_iff.mp (h _ hprev)
  refine scan_eq_some_iff.mpr ⟨i, hi, hvisit, ?_, ?_⟩
  · rw [hasRoom, hgroup, decide_eq_true hcap]
    rfl
  · intro j hj
    rw [hasRoom, hfirst j hj]
    rfl

/-- What the first slot of a group bears after some requests. -/
structure Doubled (R : RoundRobin γ) (g : γ) (start f : ℕ) (gs : List γ) (s : State) : Prop where
  prev : gs = [] ∧ s.prev = start ∨ ∃ g', gs.getLast? = some g' ∧ s.prev ∈ R.members g'
  once : g ∈ gs → 1 ≤ s.load f
  twice : Returns g gs → 2 ≤ s.load f

lemma load_le_step (h : R.step g s = some t) (x : ℕ) : s.load x ≤ t.load x := by
  obtain ⟨l, -, hself, hother, -⟩ := step_eq_some h
  rcases eq_or_ne x l with rfl | hne
  · rw [hself]
    exact Nat.le_succ _
  · rw [hother x hne]

/-- A request for the group that does not follow on one for it goes to its first slot. -/
lemma Doubled.load_step {gs : List γ} {start f : ℕ} (hs : R.Doubled g start f gs s)
    (hlead : R.Leads g start f) (hcap : s.load f < R.cap) (hlast : gs.getLast? ≠ some g)
    (h : R.step g s = some t) : t.load f = s.load f + 1 := by
  obtain ⟨l, hnext, hself, -, -⟩ := step_eq_some h
  have hout : s.prev ∈ insert start (R.others g) := by
    rcases hs.prev with ⟨-, rfl⟩ | ⟨g', hg', hprev⟩
    · exact Finset.mem_insert_self _ _
    · exact Finset.mem_insert_of_mem (mem_others hprev fun heq => hlast (heq ▸ hg'))
  rw [hlead.next hout hcap, Option.some_inj] at hnext
  rw [hnext, hself]

/-- The step lemma for requests that come back. -/
lemma Doubled.step {gs : List γ} {start f : ℕ} (hresume : ∀ l < R.slots, R.resume l = l)
    (hlead : R.Leads g start f) (hcap : 2 ≤ R.cap) (hs : R.Doubled g start f gs s)
    (h : R.step g' s = some t) : R.Doubled g start f (gs ++ [g']) t := by
  have hmono := load_le_step h f
  obtain ⟨l, hnext, -, -, hprev⟩ := step_eq_some h
  have hl := (next_eq_some hnext).1
  rw [hresume l (mem_members.mp hl).1] at hprev
  refine ⟨Or.inr ⟨g', List.getLast?_concat .., hprev ▸ hl⟩, ?_, ?_⟩
  · intro hg
    rcases Nat.eq_zero_or_pos (s.load f) with hzero | hpos
    · -- the first request for the group
      have hnew : g ∉ gs := fun hmem => absurd (hs.once hmem) (by omega)
      obtain rfl : g = g' := by simpa [hnew] using hg
      have hlast : gs.getLast? ≠ some g := fun hlast => hnew (List.mem_of_getLast? hlast)
      rw [hs.load_step hlead (by omega) hlast h]
      exact Nat.le_add_left 1 _
    · omega
  · rintro ⟨past, hpast, hlast, hmem⟩
    rcases List.prefix_concat_iff.mp hpast with heq | hpast
    · obtain ⟨rfl, hg⟩ := List.append_inj' heq rfl
      obtain rfl : g = g' := List.singleton_inj.mp hg
      have honce := hs.once hmem
      rcases Nat.lt_or_ge (s.load f) R.cap with hlt | hge
      · rw [hs.load_step hlead hlt hlast h]
        omega
      · omega
    · exact (hs.twice ⟨past, hpast, hlast, hmem⟩).trans hmono

/-- The run lemma for requests that come back. -/
lemma run_doubled {gs : List γ} {start f : ℕ} (hresume : ∀ l < R.slots, R.resume l = l)
    (hlead : R.Leads g start f) (hcap : 2 ≤ R.cap) (hstart : s.prev = start)
    (h : run R.step gs s = some t) : R.Doubled g start f gs t := by
  have hempty : R.Doubled g start f [] s := by
    refine ⟨Or.inl ⟨rfl, hstart⟩, fun h => absurd h List.not_mem_nil, ?_⟩
    rintro ⟨past, hpast, -⟩
    simp at hpast
  exact run_history (I := R.Doubled g start f)
    (fun _ _ _ _ _ hstep hs => hs.step hresume hlead hcap hstep) h hempty

/-- The load of a group grows with each request for it. -/
lemma total_run {gs : List γ} (h : run R.step gs s = some t) (g : γ) :
    R.total g t = R.total g s + gs.count g := by
  have hstart : R.total g s = R.total g s + ([] : List γ).count g := rfl
  refine run_history (I := fun past t => R.total g t = R.total g s + past.count g) ?_ h hstart
  intro past g' _ s t hstep hs
  rw [total_step hstep, hs, List.count_append, List.count_singleton, Nat.add_assoc]
  simp only [beq_iff_eq]

/-- **Requests that come back.**  They leave a group unbalanced that has more slots than requests
and a slot that is always the first. -/
theorem not_balanced_of_returns {gs : List γ} {start f : ℕ}
    (hresume : ∀ l < R.slots, R.resume l = l) (hlead : R.Leads g start f) (hcap : 2 ≤ R.cap)
    (hstart : s.prev = start) (hzero : R.total g s = 0) (hroom : gs.count g < (R.members g).card)
    (hreturns : Returns g gs) (h : run R.step gs s = some t) : ¬ R.Balanced t := by
  have htwice := (run_doubled hresume hlead hcap hstart h).twice hreturns
  -- there is a slot without load
  obtain ⟨l, hl, hload⟩ : ∃ l ∈ R.members g, t.load l < 1 := by
    by_contra hall
    push Not at hall
    have hsum : (R.members g).card * 1 ≤ R.total g t := Finset.card_nsmul_le_sum _ _ _ hall
    rw [total_run h g, hzero] at hsum
    omega
  intro hbalanced
  have := hbalanced g f hlead.mem l hl
  omega

end RoundRobin

end Lib
