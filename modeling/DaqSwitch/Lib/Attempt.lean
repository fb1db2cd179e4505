import Mathlib

/-!
# Programs that may fail half way

A program that returns a status, and that leaves behind what it has done when it fails, is one in
`EStateM`.  It is specified by what holds when it ends well and by what holds when it fails.
-/

namespace Lib.Attempt

variable {ε σ α β : Type} {P P' : σ → Prop} {E F : ε → σ → Prop}

/-- From every state with `P` the program ends with `Q`, or fails with `E`. -/
def Ends (P : σ → Prop) (x : EStateM ε σ α) (Q : α → σ → Prop) (E : ε → σ → Prop) : Prop :=
  ∀ s, P s → match x s with
    | .ok a t => Q a t
    | .error e t => E e t

/-- The state a program leaves. -/
def final (x : EStateM ε σ α) (s : σ) : σ :=
  match x s with
  | .ok _ t => t
  | .error _ t => t

/-- What `for` stands for. -/
abbrev loop {γ : Type} (cs : List γ) (f : γ → EStateM ε σ Unit) : EStateM ε σ PUnit :=
  forIn cs PUnit.unit fun c _ => do
    f c
    pure (ForInStep.yield PUnit.unit)

namespace Ends

variable {x : EStateM ε σ α} {Q Q' : α → σ → Prop}

lemma final {R : σ → Prop} (h : Ends P x (fun _ => R) (fun _ => R)) {s : σ} (hs : P s) :
    R (final x s) := by
  have hx := h s hs
  rw [Attempt.final]
  split <;> simp_all

lemma ok (h : Ends P x Q E) {s t : σ} {a : α} (hs : P s) (hrun : x.run s = .ok a t) : Q a t := by
  have hx := h s hs
  rw [EStateM.run] at hrun
  rwa [hrun] at hx

lemma error (h : Ends P x Q E) {s t : σ} {e : ε} (hs : P s) (hrun : x.run s = .error e t) :
    E e t := by
  have hx := h s hs
  rw [EStateM.run] at hrun
  rwa [hrun] at hx

lemma conseq (h : Ends P x Q E) (hP : ∀ s, P' s → P s) (hQ : ∀ a s, Q a s → Q' a s)
    (hE : ∀ e s, E e s → F e s) : Ends P' x Q' F := by
  intro s hs
  have hx := h s (hP s hs)
  split at hx
  · exact hQ _ _ hx
  · exact hE _ _ hx

lemma of_eq (h : ∀ s, P s → Ends (· = s) x Q E) : Ends P x Q E :=
  fun s hs => h s hs s rfl

lemma bind {f : α → EStateM ε σ β} {R : β → σ → Prop} (hx : Ends P x Q E)
    (hf : ∀ a, Ends (Q a) (f a) R E) : Ends P (x >>= f) R E := by
  intro s hs
  have h := hx s hs
  show match EStateM.bind x f s with
    | .ok b t => R b t
    | .error e t => E e t
  rw [EStateM.bind]
  split at h
  · next a t hxs =>
    rw [hxs]
    exact hf a t h
  · next e t hxs =>
    rw [hxs]
    exact h

lemma pure {a : α} (h : ∀ s, P s → Q a s) : Ends P (pure a : EStateM ε σ α) Q E := h

lemma throw {e : ε} (h : ∀ s, P s → E e s) : Ends P (throw e : EStateM ε σ α) Q E := h

/-- The state is read, and is known from then on. -/
lemma get_bind_eq {f : σ → EStateM ε σ β} {R : β → σ → Prop}
    (h : ∀ s, P s → Ends (· = s) (f s) R E) : Ends P (get >>= f) R E :=
  fun s hs => h s hs s rfl

/-- What is read of the state is given by what holds of it. -/
lemma get_bind {f : σ → EStateM ε σ β} {R : β → σ → Prop}
    (h : ∀ s, P s → Ends P (f s) R E) : Ends P (get >>= f) R E :=
  get_bind_eq fun s hs => (h s hs).conseq (fun _ ht => ht ▸ hs) (fun _ _ ht => ht) fun _ _ ht => ht

lemma set {s' : σ} {Q : σ → Prop} (h : ∀ s, P s → Q s') :
    Ends P (set s' : EStateM ε σ PUnit) (fun _ => Q) E := h

lemma modify {f : σ → σ} {Q : σ → Prop} (h : ∀ s, P s → Q (f s)) :
    Ends P (modify f : EStateM ε σ PUnit) (fun _ => Q) E := h

lemma ite {c : Prop} [Decidable c] {y : EStateM ε σ α} (hx : c → Ends P x Q E)
    (hy : ¬ c → Ends P y Q E) : Ends P (if c then x else y) Q E := by
  split
  · next hc => exact hx hc
  · next hc => exact hy hc

/-- A loop: the invariant may speak of the number of rounds so far. -/
lemma forIn_range {n : ℕ} {f : ℕ → EStateM ε σ Unit} {I : ℕ → σ → Prop}
    (h : ∀ i < n, Ends (I i) (f i) (fun _ => I (i + 1)) E) :
    Ends (I 0) (loop (List.range n) f) (fun _ => I n) E := by
  have hrest : ∀ k m, m + k = n → Ends (I m) (loop (List.range' m k) f) (fun _ => I n) E := by
    intro k
    induction k with
    | zero =>
      intro m hm
      exact pure fun s hs => by rwa [← hm]
    | succ k ih =>
      intro m hm
      simp only [loop, List.range'_succ, List.forIn_cons, bind_assoc, pure_bind]
      exact bind (h m (by omega)) fun _ => ih (m + 1) (by omega)
  rw [List.range_eq_range']
  exact hrest n 0 (by omega)

lemma forIn_list {γ : Type} {cs : List γ} {f : γ → EStateM ε σ Unit}
    (h : ∀ c ∈ cs, Ends P (f c) (fun _ => P) E) :
    Ends P (loop cs f) (fun _ => P) E := by
  induction cs with
  | nil => exact pure fun _ hs => hs
  | cons c cs ih =>
    simp only [loop, List.forIn_cons, bind_assoc, pure_bind]
    exact bind (h c List.mem_cons_self) fun _ => ih fun c hc => h c (List.mem_cons_of_mem _ hc)

/-- A failure of one kind is taken for the end. -/
lemma tryCatch {handle : ε → EStateM ε σ α} (hx : Ends P x Q F)
    (hhandle : ∀ e, Ends (F e) (handle e) Q E) : Ends P (tryCatch x handle) Q E := by
  intro s hs
  have h := hx s hs
  show match EStateM.tryCatch x handle s with
    | .ok a t => Q a t
    | .error e t => E e t
  rw [EStateM.tryCatch]
  split at h
  · next a t hxs =>
    rw [hxs]
    exact h
  · next e t hxs =>
    rw [hxs]
    exact hhandle e t h

end Ends

end Lib.Attempt
