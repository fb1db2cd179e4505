import DaqSwitch.Lib.Machine

/-!
# Loops of calls to a library that is not modelled

A library is known by what it answers to a call after the calls before it, so an object that it
keeps is the log of the calls made on it.  A loop that makes one call in each round appends one
entry a round, and its effect on the caller's state is that of the answers, one after the other.
-/

namespace Lib.CallLog

variable {κ ι σ : Type*}

/-- What a library answers to a call after the calls of the log; `none` is a failure. -/
abbrev Library (κ ι : Type*) := List (κ × ι) → κ → Option ι

/-- A call, which is logged, and the use of its answer. -/
def invoke (lib : Library κ ι) (call : κ) (use : ι → σ → σ) (s : List (κ × ι) × σ) :
    Option (List (κ × ι) × σ) :=
  (lib s.1 call).map fun id => (s.1 ++ [(call, id)], use id s.2)

/-- One round of a loop. -/
def round (lib : Library κ ι) (call : σ → ℕ → κ) (use : ι → ℕ → σ → σ) (i : ℕ)
    (s : List (κ × ι) × σ) : Option (List (κ × ι) × σ) :=
  invoke lib (call s.2 i) (fun id => use id i) s

/-- The effect of the first answers. -/
def uses (use : ι → ℕ → σ → σ) (ids : ℕ → ι) : ℕ → σ → σ
  | 0, s => s
  | n + 1, s => use (ids n) n (uses use ids n s)

/-- The entries of the first rounds. -/
def entries (calls : ℕ → κ) (ids : ℕ → ι) (n : ℕ) : List (κ × ι) :=
  (List.range n).map fun i => (calls i, ids i)

lemma mem_entries {calls : ℕ → κ} {ids : ℕ → ι} {n : ℕ} {call : κ} {id : ι} :
    (call, id) ∈ entries calls ids n ↔ ∃ i < n, calls i = call ∧ ids i = id := by
  simp [entries]

lemma entries_succ (calls : ℕ → κ) (ids : ℕ → ι) (n : ℕ) :
    entries calls ids (n + 1) = entries calls ids n ++ [(calls n, ids n)] := by
  simp [entries, List.range_succ]

lemma entries_congr {calls calls' : ℕ → κ} {ids ids' : ℕ → ι} {n : ℕ}
    (hcalls : ∀ i < n, calls i = calls' i) (hids : ∀ i < n, ids i = ids' i) :
    entries calls ids n = entries calls' ids' n := by
  refine List.map_congr_left ?_
  intro i hi
  rw [hcalls i (List.mem_range.mp hi), hids i (List.mem_range.mp hi)]

lemma uses_congr {use : ι → ℕ → σ → σ} {ids ids' : ℕ → ι} {n : ℕ} (h : ∀ i < n, ids i = ids' i)
    (s : σ) : uses use ids n s = uses use ids' n s := by
  induction n with
  | zero => rfl
  | succ n ih =>
    rw [uses, uses, ih fun i hi => h i (by omega), h n (by omega)]

/-- What no answer changes is as it was. -/
lemma uses_keeps {γ : Type*} {f : σ → γ} {use : ι → ℕ → σ → σ} (h : ∀ id i s, f (use id i s) = f s)
    (ids : ℕ → ι) (n : ℕ) (s : σ) : f (uses use ids n s) = f s := by
  induction n with
  | zero => rfl
  | succ n ih => rw [uses, h, ih]

/-- An array that is filled with the answers holds them. -/
lemma uses_array {f : σ → ℕ → ι} {use : ι → ℕ → σ → σ}
    (h : ∀ id i s, f (use id i s) = Function.update (f s) i id) (ids : ℕ → ι) {n i : ℕ}
    (hi : i < n) (s : σ) : f (uses use ids n s) i = ids i := by
  induction n with
  | zero => exact absurd hi (Nat.not_lt_zero i)
  | succ n ih =>
    rw [uses, h]
    rcases Nat.lt_succ_iff_lt_or_eq.mp hi with hlt | rfl
    · rw [Function.update_of_ne hlt.ne, ih hlt]
    · rw [Function.update_self]

/-- The loop rule: when the answers do not change the calls that are still to come, the loop
appends one entry a round, each with what the library answered. -/
lemma run_round [Inhabited ι] {lib : Library κ ι} {call : σ → ℕ → κ} {use : ι → ℕ → σ → σ} {n : ℕ}
    {s t : List (κ × ι) × σ} (hcall : ∀ id i s, call (use id i s) = call s)
    (h : Machine.run (round lib call use) (List.range n) s = some t) :
    ∃ ids : ℕ → ι, t = (s.1 ++ entries (call s.2) ids n, uses use ids n s.2) ∧
      ∀ i < n, lib (s.1 ++ entries (call s.2) ids i) (call s.2 i) = some (ids i) := by
  have huses (ids : ℕ → ι) (n : ℕ) : call (uses use ids n s.2) = call s.2 := by
    induction n with
    | zero => rfl
    | succ n ih => rw [uses, hcall, ih]
  induction n generalizing t with
  | zero =>
    obtain rfl : s = t := by simpa using h
    exact ⟨default, by simp [entries, uses], fun i hi => absurd hi (Nat.not_lt_zero i)⟩
  | succ n ih =>
    rw [Machine.run_range_succ, Option.bind_eq_some_iff] at h
    obtain ⟨s₁, hrun, hlast⟩ := h
    obtain ⟨ids, rfl, hids⟩ := ih hrun
    rw [round, invoke, Option.map_eq_some_iff] at hlast
    obtain ⟨id, hid, rfl⟩ := hlast
    have hbelow : ∀ i < n, ids i = Function.update ids n id i := by
      intro i hi
      rw [Function.update_of_ne (by omega)]
    refine ⟨Function.update ids n id, ?_, ?_⟩
    · rw [entries_succ, uses, Function.update_self, ← entries_congr (fun _ _ => rfl) hbelow,
        ← uses_congr hbelow, huses, List.append_assoc]
    · intro i hi
      rw [← entries_congr (fun _ _ => rfl) fun j hj => hbelow j (by omega)]
      rcases Nat.lt_succ_iff_lt_or_eq.mp hi with hlt | rfl
      · rw [← hbelow i hlt]
        exact hids i hlt
      · rw [Function.update_self, ← hid, huses]

/-! ## Ids of objects -/

variable {τ : Type*} {kind : κ → Option τ}

/-- The library gives an object that a call creates an id that no earlier object of its kind
has. -/
def FreshIds (lib : Library κ ι) (kind : κ → Option τ) : Prop :=
  ∀ log call call' id, lib log call = some id → (call', id) ∈ log → kind call ≠ none →
    kind call' ≠ kind call

/-- The objects that a loop creates have distinct ids. -/
lemma FreshIds.inj {lib : Library κ ι} {log : List (κ × ι)} {calls : ℕ → κ} {ids : ℕ → ι} {n : ℕ}
    {k : τ} (h : FreshIds lib kind) (hkind : ∀ i, kind (calls i) = some k)
    (hids : ∀ i < n, lib (log ++ entries calls ids i) (calls i) = some (ids i)) {i j : ℕ}
    (hi : i < n) (hj : j < n) (heq : ids i = ids j) : i = j := by
  have hlt : ∀ i < n, ∀ j < i, ids j ≠ ids i := by
    intro i hi j hji heq
    have hmem : (calls j, ids i) ∈ log ++ entries calls ids i :=
      List.mem_append_right _ (mem_entries.mpr ⟨j, hji, rfl, heq⟩)
    have hne := h _ _ _ _ (hids i hi) hmem (by simp [hkind])
    exact hne (by rw [hkind, hkind])
  rcases lt_trichotomy i j with hij | hij | hij
  · exact absurd heq (hlt j hj i hij)
  · exact hij
  · exact absurd heq.symm (hlt i hi j hij)

variable [DecidableEq τ]

/-- The number of objects of a kind. -/
def created (kind : κ → Option τ) (k : τ) (log : List (κ × ι)) : ℕ :=
  log.countP fun e => kind e.1 = some k

/-- The library numbers the objects of a kind in the order in which they are created. -/
def Numbers (lib : Library κ ι) (kind : κ → Option τ) (num : ℕ → ι) : Prop :=
  ∀ log call k id, kind call = some k → lib log call = some id → id = num (created kind k log)

lemma created_append (kind : κ → Option τ) (k : τ) (log log' : List (κ × ι)) :
    created kind k (log ++ log') = created kind k log + created kind k log' :=
  List.countP_append

lemma created_entries {k : τ} {calls : ℕ → κ} (hkind : ∀ i, kind (calls i) = some k)
    (ids : ℕ → ι) (n : ℕ) : created kind k (entries calls ids n) = n := by
  induction n with
  | zero => rfl
  | succ n ih =>
    rw [entries_succ, created_append, ih]
    simp [created, hkind]

/-- The objects that a loop creates have consecutive numbers. -/
lemma Numbers.ids {lib : Library κ ι} {num : ℕ → ι} {log : List (κ × ι)} {calls : ℕ → κ}
    {ids : ℕ → ι} {n : ℕ} {k : τ} (h : Numbers lib kind num)
    (hkind : ∀ i, kind (calls i) = some k)
    (hids : ∀ i < n, lib (log ++ entries calls ids i) (calls i) = some (ids i)) {i : ℕ}
    (hi : i < n) : ids i = num (created kind k log + i) := by
  have hid := h _ _ k _ (hkind i) (hids i hi)
  rwa [created_append, created_entries hkind] at hid

end Lib.CallLog
