import Mathlib

/-!
# Runs of a partial step function

A program that handles one input after another is a partial function
`step : α → σ → Option σ`: `none` stands for an abort.  `run step as s` feeds it the
inputs `as` one by one.  Every induction over a run is packaged here once: an
invariant, a reflexive and transitive relation between the first and the last state,
and totality.
-/

namespace Lib.Machine

variable {σ α : Type*} {step : α → σ → Option σ}

/-- Feed the inputs to the step function, from left to right; `none` as soon as one
step aborts. -/
def run (step : α → σ → Option σ) : List α → σ → Option σ
  | [], s => some s
  | a :: as, s => (step a s).bind (run step as)

@[simp] lemma run_nil (s : σ) : run step [] s = some s := rfl

lemma run_cons (a : α) (as : List α) (s : σ) :
    run step (a :: as) s = (step a s).bind (run step as) := rfl

@[simp] lemma run_singleton (a : α) (s : σ) : run step [a] s = step a s := by
  rw [run_cons]
  cases step a s <;> rfl

lemma run_cons_eq_some {a : α} {as : List α} {s t : σ} :
    run step (a :: as) s = some t ↔ ∃ s₁, step a s = some s₁ ∧ run step as s₁ = some t := by
  rw [run_cons, Option.bind_eq_some_iff]

lemma run_append (as bs : List α) (s : σ) :
    run step (as ++ bs) s = (run step as s).bind (run step bs) := by
  induction as generalizing s with
  | nil => rfl
  | cons a as ih =>
    rw [List.cons_append, run_cons, run_cons]
    cases step a s with
    | none => rfl
    | some s₁ => exact ih s₁

lemma run_append_of_eq_some {as bs : List α} {s t u : σ}
    (h : run step as s = some t) (h' : run step bs t = some u) :
    run step (as ++ bs) s = some u := by
  rw [run_append, h]
  exact h'

/-- The run rule: what every step on an input of the run preserves holds at the end of
the run. -/
lemma run_invariant {I : σ → Prop} {as : List α} {s t : σ}
    (hstep : ∀ a ∈ as, ∀ s t, step a s = some t → I s → I t)
    (h : run step as s = some t) (hs : I s) : I t := by
  induction as generalizing s with
  | nil =>
    obtain rfl : s = t := by simpa using h
    exact hs
  | cons a as ih =>
    obtain ⟨s₁, h₁, h₂⟩ := run_cons_eq_some.mp h
    exact ih (fun b hb => hstep b (List.mem_cons_of_mem _ hb)) h₂
      (hstep a List.mem_cons_self _ _ h₁ hs)

/-- The same rule with a history: the invariant may speak of the inputs handled so
far. -/
lemma run_history {I : List α → σ → Prop} {as : List α} {s t : σ}
    (hstep : ∀ past, ∀ a ∈ as, ∀ s t, step a s = some t → I past s → I (past ++ [a]) t)
    (h : run step as s = some t) {past : List α} (hs : I past s) : I (past ++ as) t := by
  induction as generalizing s past with
  | nil =>
    obtain rfl : s = t := by simpa using h
    simpa using hs
  | cons a as ih =>
    obtain ⟨s₁, h₁, h₂⟩ := run_cons_eq_some.mp h
    have h₃ := ih (fun past b hb => hstep past b (List.mem_cons_of_mem _ hb)) h₂
      (hstep past a List.mem_cons_self _ _ h₁ hs)
    simpa using h₃

/-- A loop with one round more. -/
lemma run_range_succ {step : ℕ → σ → Option σ} (n : ℕ) (s : σ) :
    run step (List.range (n + 1)) s = (run step (List.range n) s).bind (step n) := by
  rw [List.range_succ, run_append]
  congr 1
  funext t
  exact run_singleton n t

/-- The same rule for a loop over `0, 1, …, n - 1`: the invariant may speak of the number of
rounds so far. -/
lemma run_range {step : ℕ → σ → Option σ} {I : ℕ → σ → Prop} {n : ℕ} {s t : σ}
    (hstep : ∀ i < n, ∀ s t, step i s = some t → I i s → I (i + 1) t)
    (h : run step (List.range n) s = some t) (hs : I 0 s) : I n t := by
  induction n generalizing t with
  | zero =>
    obtain rfl : s = t := by simpa using h
    exact hs
  | succ n ih =>
    rw [run_range_succ, Option.bind_eq_some_iff] at h
    obtain ⟨s₁, hrun, hlast⟩ := h
    exact hstep n (Nat.lt_succ_self n) s₁ t hlast
      (ih (fun i hi => hstep i (Nat.lt_succ_of_lt hi)) hrun)

/-- A reflexive and transitive relation that holds across every step holds across the
run. -/
lemma run_rel {R : σ → σ → Prop} (hrefl : ∀ s, R s s)
    (htrans : ∀ s t u, R s t → R t u → R s u) {as : List α} {s t : σ}
    (hstep : ∀ a ∈ as, ∀ s t, step a s = some t → R s t)
    (h : run step as s = some t) : R s t :=
  run_invariant (I := R s) (fun a ha u v huv hu => htrans s u v hu (hstep a ha u v huv)) h
    (hrefl s)

/-- A run does not abort when an invariant is preserved under which no step does. -/
lemma run_total {I : σ → Prop} {as : List α} {s : σ}
    (hstep : ∀ a ∈ as, ∀ s, I s → ∃ t, step a s = some t ∧ I t) (hs : I s) :
    ∃ t, run step as s = some t ∧ I t := by
  induction as generalizing s with
  | nil => exact ⟨s, rfl, hs⟩
  | cons a as ih =>
    obtain ⟨s₁, h₁, hs₁⟩ := hstep a List.mem_cons_self s hs
    obtain ⟨t, ht, htInv⟩ := ih (fun b hb => hstep b (List.mem_cons_of_mem _ hb)) hs₁
    exact ⟨t, run_cons_eq_some.mpr ⟨s₁, h₁, ht⟩, htInv⟩

/-- The same rule with a condition on the inputs that are still to come. -/
lemma run_total_rest {I : List α → σ → Prop} {as : List α} {s : σ}
    (hstep : ∀ a as s, I (a :: as) s → ∃ t, step a s = some t ∧ I as t) (hs : I as s) :
    ∃ t, run step as s = some t ∧ I [] t := by
  induction as generalizing s with
  | nil => exact ⟨s, rfl, hs⟩
  | cons a as ih =>
    obtain ⟨s₁, h₁, hs₁⟩ := hstep a as s hs
    obtain ⟨t, ht, htInv⟩ := ih hs₁
    exact ⟨t, run_cons_eq_some.mpr ⟨s₁, h₁, ht⟩, htInv⟩

/-- The simulation rule: when every step of a loop is one of the machine, for the states that
`g` and the inputs that `e` gives, so is the loop. -/
lemma map_foldlM {τ β : Type*} {f : τ → β → Option τ} {g : τ → σ} {e : β → α} {bs : List β}
    (h : ∀ b ∈ bs, ∀ s, (f s b).map g = step (e b) (g s)) (s : τ) :
    (bs.foldlM f s).map g = run step (bs.map e) (g s) := by
  induction bs generalizing s with
  | nil => rfl
  | cons b bs ih =>
    rw [List.foldlM_cons, List.map_cons, run_cons, ← h b List.mem_cons_self s]
    cases f s b with
    | none => rfl
    | some s₁ => exact ih (fun b' hb' => h b' (List.mem_cons_of_mem _ hb')) s₁

/-- The same rule for two machines. -/
lemma map_run {τ : Type*} {step' : α → τ → Option τ} {g : σ → τ}
    (h : ∀ a s, (step a s).map g = step' a (g s)) (as : List α) (s : σ) :
    (run step as s).map g = run step' as (g s) := by
  induction as generalizing s with
  | nil => rfl
  | cons a as ih =>
    rw [run_cons, run_cons, ← h]
    cases step a s with
    | none => rfl
    | some s₁ => exact ih s₁

/-- Forward simulation, rule: when the machine follows each step of another one, it follows its
runs. -/
lemma run_follows {τ β : Type*} {step' : β → τ → Option τ} {e : α → β} {S : σ → τ → Prop}
    (hstep : ∀ a s x y, S s x → step' (e a) x = some y → ∃ t, step a s = some t ∧ S t y)
    {as : List α} {s : σ} {x y : τ} (hs : S s x) (h : run step' (as.map e) x = some y) :
    ∃ t, run step as s = some t ∧ S t y := by
  induction as generalizing s x with
  | nil =>
    obtain rfl : x = y := by simpa using h
    exact ⟨s, rfl, hs⟩
  | cons a as ih =>
    obtain ⟨x₁, h₁, h₂⟩ := run_cons_eq_some.mp h
    obtain ⟨s₁, hs₁, hS⟩ := hstep a s x x₁ hs h₁
    obtain ⟨t, ht, hS'⟩ := ih hS h₂
    exact ⟨t, run_cons_eq_some.mpr ⟨s₁, hs₁, ht⟩, hS'⟩

/-- A state is reached from another one by repeating one input. -/
def Repeats (step : α → σ → Option σ) (a : α) (s t : σ) : Prop :=
  ∃ k, run step (List.replicate k a) s = some t

namespace Repeats

variable {a : α} {s t u : σ}

lemma refl : Repeats step a s s := ⟨0, rfl⟩

lemma head (h : step a s = some t) (h' : Repeats step a t u) : Repeats step a s u := by
  obtain ⟨k, hk⟩ := h'
  exact ⟨k + 1, run_cons_eq_some.mpr ⟨t, h, hk⟩⟩

lemma trans (h : Repeats step a s t) (h' : Repeats step a t u) : Repeats step a s u := by
  obtain ⟨m, hm⟩ := h
  obtain ⟨n, hn⟩ := h'
  refine ⟨m + n, ?_⟩
  rw [List.replicate_add]
  exact run_append_of_eq_some hm hn

end Repeats

/-! ## Conditions on the steps of a run -/

/-- Every step of the run meets a condition on its input and on the state before it. -/
def Throughout (step : α → σ → Option σ) (K : α → σ → Prop) : List α → σ → Prop
  | [], _ => True
  | a :: as, s => K a s ∧ ∀ t, step a s = some t → Throughout step K as t

variable {K : α → σ → Prop}

@[simp] lemma throughout_nil (s : σ) : Throughout step K [] s := trivial

lemma throughout_cons {a : α} {as : List α} {s t : σ} (h : step a s = some t) :
    Throughout step K (a :: as) s ↔ K a s ∧ Throughout step K as t := by
  constructor
  · rintro ⟨ha, has⟩
    exact ⟨ha, has t h⟩
  · rintro ⟨ha, has⟩
    refine ⟨ha, ?_⟩
    intro t' h'
    rw [h, Option.some_inj] at h'
    exact h' ▸ has

lemma throughout_of_none {a : α} {as : List α} {s : σ} (h : step a s = none) :
    Throughout step K (a :: as) s ↔ K a s := by
  refine ⟨fun hK => hK.1, fun hK => ⟨hK, ?_⟩⟩
  intro t ht
  rw [h] at ht
  cases ht

instance decidableThroughout [∀ a s, Decidable (K a s)] :
    ∀ as s, Decidable (Throughout step K as s)
  | [], s => isTrue (throughout_nil s)
  | a :: as, s =>
    match h : step a s with
    | none => decidable_of_iff _ (throughout_of_none h).symm
    | some t =>
      have := decidableThroughout as t
      decidable_of_iff _ (throughout_cons h).symm

/-- The run rule under a condition on the steps. -/
lemma run_keeps {I : σ → Prop} {as : List α} {s t : σ}
    (hstep : ∀ a s t, step a s = some t → K a s → I s → I t)
    (h : run step as s = some t) (hK : Throughout step K as s) (hs : I s) : I t := by
  induction as generalizing s with
  | nil =>
    obtain rfl : s = t := by simpa using h
    exact hs
  | cons a as ih =>
    obtain ⟨s₁, h₁, h₂⟩ := run_cons_eq_some.mp h
    obtain ⟨ha, has⟩ := (throughout_cons h₁).mp hK
    exact ih h₂ has (hstep a s s₁ h₁ ha hs)

/-- Two conditions that agree under an invariant, which a step that meets them keeps, are met
throughout by the same runs. -/
lemma throughout_congr {K' : α → σ → Prop} {I : σ → Prop} {as : List α} {s : σ}
    (hiff : ∀ a ∈ as, ∀ s, I s → (K a s ↔ K' a s))
    (hkeep : ∀ a ∈ as, ∀ s t, step a s = some t → I s → K a s → I t) (hs : I s) :
    Throughout step K as s ↔ Throughout step K' as s := by
  induction as generalizing s with
  | nil => exact Iff.rfl
  | cons a as ih =>
    have hrest (t : σ) (ht : step a s = some t) (ha : K a s) :
        Throughout step K as t ↔ Throughout step K' as t :=
      ih (fun b hb => hiff b (List.mem_cons_of_mem _ hb))
        (fun b hb => hkeep b (List.mem_cons_of_mem _ hb)) (hkeep a List.mem_cons_self s t ht hs ha)
    have ha := hiff a List.mem_cons_self s hs
    constructor
    · rintro ⟨hK, has⟩
      exact ⟨ha.mp hK, fun t ht => (hrest t ht hK).mp (has t ht)⟩
    · rintro ⟨hK', has⟩
      exact ⟨ha.mpr hK', fun t ht => (hrest t ht (ha.mpr hK')).mpr (has t ht)⟩

/-- Exactness of a condition, rule: when a step that meets `K` keeps `J`, and a step that
arrives at `J` came from `J` and met `K`, a run from `J` ends in `J` if and only if all
its steps meet `K`.  The invariant `I` may be used on the way. -/
lemma run_iff_throughout {I J : σ → Prop} {as : List α} {s t : σ}
    (hinv : ∀ a ∈ as, ∀ s t, step a s = some t → I s → I t)
    (hkeep : ∀ a ∈ as, ∀ s t, step a s = some t → I s → J s → K a s → J t)
    (hneed : ∀ a ∈ as, ∀ s t, step a s = some t → I s → J t → J s ∧ K a s)
    (h : run step as s = some t) (hs : I s) :
    J t ↔ J s ∧ Throughout step K as s := by
  induction as generalizing s with
  | nil =>
    obtain rfl : s = t := by simpa using h
    simp
  | cons a as ih =>
    obtain ⟨s₁, h₁, h₂⟩ := run_cons_eq_some.mp h
    -- the rest of the run is exact from `s₁`; the first step is exact by `hkeep`, `hneed`
    have hrest := ih (fun b hb => hinv b (List.mem_cons_of_mem _ hb))
      (fun b hb => hkeep b (List.mem_cons_of_mem _ hb))
      (fun b hb => hneed b (List.mem_cons_of_mem _ hb)) h₂ (hinv a List.mem_cons_self _ _ h₁ hs)
    rw [hrest, throughout_cons h₁]
    constructor
    · rintro ⟨hJ, has⟩
      obtain ⟨hJs, ha⟩ := hneed a List.mem_cons_self _ _ h₁ hs hJ
      exact ⟨hJs, ha, has⟩
    · rintro ⟨hJs, ha, has⟩
      exact ⟨hkeep a List.mem_cons_self _ _ h₁ hs hJs ha, has⟩

/-! ## Counting the steps of a run -/

/-- The number of steps of a run that meet a condition. -/
def tally (step : α → σ → Option σ) (K : α → σ → Bool) : List α → σ → ℕ
  | [], _ => 0
  | a :: as, s => (K a s).toNat + ((step a s).map (tally step K as)).getD 0

/-- The run rule with the count of the steps that meet a condition. -/
lemma run_tally {K : α → σ → Bool} {I : ℕ → σ → Prop} {L : α → σ → Prop} {as : List α} {s t : σ}
    (hstep : ∀ n a s t, step a s = some t → L a s → I n s → I (n + (K a s).toNat) t)
    (h : run step as s = some t) (hL : Throughout step L as s) {n : ℕ} (hs : I n s) :
    I (n + tally step K as s) t := by
  induction as generalizing s n with
  | nil =>
    obtain rfl : s = t := by simpa using h
    exact hs
  | cons a as ih =>
    obtain ⟨s₁, h₁, h₂⟩ := run_cons_eq_some.mp h
    obtain ⟨ha, has⟩ := (throughout_cons h₁).mp hL
    have hrest := ih h₂ has (hstep n a s s₁ h₁ ha hs)
    rw [Nat.add_assoc] at hrest
    rw [tally, h₁]
    exact hrest

/-- Amortised counting: when the potential pays for every step that is counted, and only a step
that meets `K'` raises it, by at most `b` less one. -/
lemma tally_le_of_potential {K K' : α → σ → Bool} {I : σ → Prop} {L : α → σ → Prop} {φ : σ → ℕ}
    {b : ℕ} {as : List α} {s t : σ} (hinv : ∀ a s t, step a s = some t → I s → I t)
    (hstep : ∀ a s t, step a s = some t → L a s → I s →
      φ t + (K a s).toNat ≤ φ s + b * (K' a s).toNat)
    (h : run step as s = some t) (hL : Throughout step L as s) (hs : I s) :
    φ t + tally step K as s ≤ φ s + b * tally step K' as s := by
  induction as generalizing s with
  | nil =>
    obtain rfl : s = t := by simpa using h
    exact le_rfl
  | cons a as ih =>
    obtain ⟨s₁, h₁, h₂⟩ := run_cons_eq_some.mp h
    obtain ⟨ha, has⟩ := (throughout_cons h₁).mp hL
    have hfirst := hstep a s s₁ h₁ ha hs
    have hrest := ih h₂ has (hinv a s s₁ h₁ hs)
    have hcount (K : α → σ → Bool) :
        tally step K (a :: as) s = (K a s).toNat + tally step K as s₁ := by rw [tally, h₁]; rfl
    rw [hcount, hcount, Nat.mul_add]
    omega

/-! ## Families of local states -/

/-- An update of one member keeps what holds of all. -/
lemma forall_update {T : ℕ → σ → Prop} {f : ℕ → σ} {l : ℕ} {x : σ} (hf : ∀ l, T l (f l))
    (hx : T l x) (l' : ℕ) : T l' (Function.update f l x l') := by
  rcases eq_or_ne l' l with rfl | hl
  · rwa [Function.update_self]
  · rw [Function.update_of_ne hl]
    exact hf l'

/-- An update that keeps a reading of one member keeps that reading of all. -/
lemma apply_update_eq {β : Type*} (g : σ → β) {f : ℕ → σ} {l : ℕ} {x : σ} (h : g x = g (f l))
    (l' : ℕ) : g (Function.update f l x l') = g (f l') :=
  forall_update (T := fun l y => g y = g (f l)) (fun _ => rfl) h l'

/-- An update of one member changes a sum over members by what that member contributes. -/
lemma sum_update {ι N : Type*} [DecidableEq ι] [AddCommMonoid N] (g : σ → N) (f : ι → σ)
    {ls : Finset ι} {l : ι} (hl : l ∈ ls) (x : σ) :
    ∑ i ∈ ls, g (Function.update f l x i) + g (f l) = ∑ i ∈ ls, g (f i) + g x := by
  have hrest : ∑ i ∈ ls.erase l, g (Function.update f l x i) = ∑ i ∈ ls.erase l, g (f i) :=
    Finset.sum_congr rfl fun i hi => by rw [Function.update_of_ne (Finset.ne_of_mem_erase hi)]
  rw [← Finset.sum_erase_add ls _ hl, ← Finset.sum_erase_add ls (fun i => g (f i)) hl, hrest,
    Function.update_self, add_right_comm]

end Lib.Machine
