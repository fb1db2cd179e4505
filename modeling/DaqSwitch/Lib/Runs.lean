import DaqSwitch.Lib.Window

/-!
# Runs of equal keys

A run of an array of keys is a maximal stretch of equal keys.  A program that cuts an array
into its runs keeps a table with the length of each run at its start, and the start of the
last, still open run.  `Counted` is the invariant of such a program; `Counted.extend` is the
rule for counting on.  Items that carry a key are split by `demux`.
-/

namespace Lib

variable {α κ : Type*}

/-! ## Runs -/

/-- A run of `d` starts at `h`. -/
def IsStart (d : ℕ → κ) (h : ℕ) : Prop := h = 0 ∨ d (h - 1) ≠ d h

/-- The run from `h`, cut off at `n`, has `m` elements. -/
structure IsRun (d : ℕ → κ) (h m n : ℕ) : Prop where
  pos : 0 < m
  le : h + m ≤ n
  eq : ∀ i < m, d (h + i) = d h
  max : h + m < n → d (h + m) ≠ d h

variable {d : ℕ → κ} {h m n : ℕ}

lemma isStart_zero : IsStart d 0 := Or.inl rfl

lemma IsRun.eq_of_mem (hr : IsRun d h m n) {i : ℕ} (hi : h ≤ i) (him : i < h + m) : d i = d h := by
  have := hr.eq (i - h) (by omega)
  rwa [Nat.add_sub_cancel' hi] at this

/-- No run starts inside a run. -/
lemma IsRun.not_isStart (hr : IsRun d h m n) {i : ℕ} (hi : h < i) (him : i < h + m) :
    ¬ IsStart d i := by
  rintro (rfl | hne)
  · exact absurd hi (Nat.not_lt_zero h)
  · exact hne ((hr.eq_of_mem (by omega) (by omega)).trans (hr.eq_of_mem (by omega) him).symm)

/-- The next run starts where a run ends. -/
lemma IsRun.isStart_end (hr : IsRun d h m n) (hlt : h + m < n) : IsStart d (h + m) := by
  have hlast := hr.eq_of_mem (i := h + m - 1) (by have := hr.pos; omega) (by have := hr.pos; omega)
  refine Or.inr fun heq => hr.max hlt ?_
  rw [← heq, hlast]

/-- A run that ends below the cut does not depend on the cut. -/
lemma IsRun.recut (hr : IsRun d h m n) (hlt : h + m < n) {n' : ℕ} (hn : n ≤ n') :
    IsRun d h m n' :=
  ⟨hr.pos, hr.le.trans hn, hr.eq, fun _ => hr.max hlt⟩

/-- The length of a run is determined. -/
lemma IsRun.unique (hr : IsRun d h m n) {m' : ℕ} (hr' : IsRun d h m' n) : m = m' := by
  have hle := hr.le
  have hle' := hr'.le
  rcases lt_trichotomy m m' with hlt | heq | hlt
  · exact absurd (hr'.eq m hlt) (hr.max (by omega))
  · exact heq
  · exact absurd (hr.eq m' hlt) (hr'.max (by omega))

/-- The last element alone. -/
lemma isRun_last (d : ℕ → κ) (h : ℕ) : IsRun d h 1 (h + 1) :=
  ⟨Nat.one_pos, le_rfl, fun i hi => by rw [Nat.lt_one_iff.mp hi, Nat.add_zero],
    fun hlt => absurd hlt (by omega)⟩

/-- A run from the equality of neighbours. -/
lemma IsRun.of_links (hm : 0 < m) (hle : h + m ≤ n)
    (hlink : ∀ i, h ≤ i → i + 1 < h + m → d i = d (i + 1))
    (hmax : h + m < n → d (h + m - 1) ≠ d (h + m)) : IsRun d h m n := by
  have heq : ∀ i < m, d (h + i) = d h := by
    intro i hi
    induction i with
    | zero => rfl
    | succ i ih => exact (hlink (h + i) (by omega) (by omega)).symm.trans (ih (by omega))
  refine ⟨hm, hle, heq, fun hlt hd => hmax hlt ?_⟩
  have := heq (m - 1) (by omega)
  rw [hd, ← this, Nat.add_sub_assoc hm]

lemma IsRun.congr {d' : ℕ → κ} (hr : IsRun d h m n) (hd : ∀ i < n, d' i = d i) :
    IsRun d' h m n := by
  have hpos := hr.pos
  have hle := hr.le
  refine ⟨hpos, hle, ?_, ?_⟩
  · intro i hi
    rw [hd _ (by omega), hd _ (by omega)]
    exact hr.eq i hi
  · intro hlt
    rw [hd _ hlt, hd _ (by omega)]
    exact hr.max hlt

lemma IsStart.congr {d' : ℕ → κ} (hs : IsStart d h) (hlt : h < n) (hd : ∀ i < n, d' i = d i) :
    IsStart d' h := by
  refine hs.imp id ?_
  intro hne
  rwa [hd _ (by omega), hd _ hlt]

/-! ## Counting runs -/

/-- The first `n ≠ 0` keys have been cut: `f` holds the length of each run at its start, and
`lp` is the start of the last one. -/
structure Counted (d : ℕ → κ) (f : ℕ → ℕ) (lp n : ℕ) : Prop where
  run : ∀ h < n, IsStart d h → IsRun d h (f h) n
  start : IsStart d lp
  reach : lp + f lp = n
  lt : lp < n

variable {f : ℕ → ℕ} {lp : ℕ}

lemma counted_one (d : ℕ → κ) (hf : f 0 = 1) : Counted d f 0 1 := by
  refine ⟨?_, isStart_zero, by omega, Nat.one_pos⟩
  intro h hh _
  obtain rfl : h = 0 := by omega
  rw [hf]
  exact isRun_last d 0

namespace Counted

lemma runLast (hc : Counted d f lp n) : IsRun d lp (f lp) n := hc.run lp hc.lt hc.start

lemma pos (hc : Counted d f lp n) : 0 < f lp := hc.runLast.pos

/-- Every key from the last start on is the key of the last run. -/
lemma eq_last (hc : Counted d f lp n) {i : ℕ} (hi : lp ≤ i) (hin : i < n) : d i = d lp :=
  hc.runLast.eq_of_mem hi (by rw [hc.reach]; exact hin)

lemma le_last (hc : Counted d f lp n) (hs : IsStart d h) (hlt : h < n) : h ≤ lp := by
  by_contra hgt
  exact hc.runLast.not_isStart (by omega) (by rw [hc.reach]; exact hlt) hs

/-- A run that starts before the last one ends before it. -/
lemma end_le (hc : Counted d f lp n) (hs : IsStart d h) (hlt : h < lp) : h + f h ≤ lp := by
  by_contra hgt
  exact (hc.run h (hlt.trans hc.lt) hs).not_isStart hlt (by omega) hc.start

/-- Counting on: the closed runs keep their lengths, the last run and the new ones have the
right lengths at the new cut. -/
lemma extend (hc : Counted d f lp n) {f' : ℕ → ℕ} {lp' n' : ℕ} (hn : n ≤ n')
    (hold : ∀ h < lp, f' h = f h) (hlast : IsRun d lp (f' lp) n')
    (hnew : ∀ h, n ≤ h → h < n' → IsStart d h → IsRun d h (f' h) n')
    (hstart : IsStart d lp') (hreach : lp' + f' lp' = n') (hlt : lp' < n') :
    Counted d f' lp' n' := by
  refine ⟨?_, hstart, hreach, hlt⟩
  intro h hh hs
  -- a run starts before the last run, at it, or behind the old cut
  rcases Nat.lt_or_ge h n with hhn | hhn
  · rcases (hc.le_last hs hhn).lt_or_eq with hlp | rfl
    · rw [hold h hlp]
      have hend := hc.end_le hs hlp
      exact (hc.run h hhn hs).recut (by have := hc.lt; omega) hn
    · exact hlast
  · exact hnew h hhn hh hs

lemma congr {d' : ℕ → κ} (hc : Counted d f lp n) (hd : ∀ i < n, d' i = d i) :
    Counted d' f lp n :=
  ⟨fun h hh hs => (hc.run h hh (hs.congr hh fun i hi => (hd i hi).symm)).congr hd,
    hc.start.congr hc.lt hd, hc.reach, hc.lt⟩

/-- The next key is the key of the last run. -/
lemma grow (hc : Counted d f lp n) (hd : d n = d lp) :
    Counted d (Function.update f lp (f lp + 1)) lp (n + 1) := by
  have hrun : IsRun d lp (f lp + 1) (n + 1) := by
    have hreach := hc.reach
    refine ⟨Nat.succ_pos _, by omega, ?_, fun hlt => absurd hlt (by omega)⟩
    intro i hi
    rcases Nat.lt_succ_iff_lt_or_eq.mp hi with hi | rfl
    · exact hc.runLast.eq i hi
    · rw [hreach, hd]
  refine hc.extend n.le_succ (fun h hh => Function.update_of_ne (by omega) _ _) ?_ ?_ hc.start ?_
    (Nat.lt_succ_of_lt hc.lt)
  · rwa [Function.update_self]
  · intro h hnh hh hs
    exact absurd hs (hrun.not_isStart (by have := hc.lt; omega) (by have := hc.reach; omega))
  · rw [Function.update_self]
    have := hc.reach
    omega

/-- The next key starts a run. -/
lemma next (hc : Counted d f lp n) (hd : d n ≠ d lp) :
    Counted d (Function.update f n 1) n (n + 1) := by
  have hlt := hc.lt
  have hstart : IsStart d n := by
    refine Or.inr fun heq => hd ?_
    rw [← heq, hc.eq_last (by omega) (by omega)]
  refine hc.extend n.le_succ (fun h hh => Function.update_of_ne (by omega) _ _) ?_ ?_ hstart ?_
    n.lt_succ_self
  · rw [Function.update_of_ne (by omega)]
    refine ⟨hc.pos, by have := hc.reach; omega, hc.runLast.eq, ?_⟩
    intro _
    rwa [hc.reach]
  · intro h hnh hh _
    obtain rfl : h = n := by omega
    rw [Function.update_self]
    exact isRun_last d h
  · rw [Function.update_self]

/-- Take back a repetition of the last key that was counted in excess. -/
lemma shrink (hc : Counted d f lp (n + 1)) (hd : d (n - 1) = d n) (hn : 0 < n) :
    Counted d (Function.update f lp (f lp - 1)) lp n := by
  have hreach := hc.reach
  -- the last key repeats the one before it, so it does not start a run
  have hlt : lp < n := by
    rcases (Nat.lt_succ_iff.mp hc.lt).lt_or_eq with hlt | rfl
    · exact hlt
    · rcases hc.start with h0 | hne
      · omega
      · exact absurd hd hne
  have hrun : IsRun d lp (f lp - 1) n :=
    ⟨by omega, by omega, fun i hi => hc.runLast.eq i (by omega), fun h => absurd h (by omega)⟩
  refine ⟨?_, hc.start, by rw [Function.update_self]; omega, hlt⟩
  intro h hh hs
  rcases (hc.le_last hs (by omega)).lt_or_eq with hlp | rfl
  · rw [Function.update_of_ne (by omega)]
    have hend := hc.end_le hs hlp
    have hr := hc.run h (by omega) hs
    exact ⟨hr.pos, by omega, hr.eq, fun _ => hr.max (by omega)⟩
  · rwa [Function.update_self]

/-- Induction over the runs, from the last one back to the first. -/
lemma induction (hc : Counted d f lp n) {motive : ℕ → Prop} (hend : motive n)
    (hrun : ∀ j < n, IsStart d j → IsRun d j (f j) n → motive (j + f j) → motive j) :
    motive 0 := by
  have hfrom : ∀ k j, n - j ≤ k → j ≤ n → (j < n → IsStart d j) → motive j := by
    intro k
    induction k with
    | zero =>
      intro j hk hle _
      obtain rfl : j = n := by omega
      exact hend
    | succ k ih =>
      intro j hk hle hs
      rcases hle.lt_or_eq with hlt | rfl
      · have hr := hc.run j hlt (hs hlt)
        have hpos := hr.pos
        exact hrun j hlt (hs hlt) hr (ih _ (by omega) hr.le hr.isStart_end)
      · exact hend
  exact hfrom n 0 (by omega) (by omega) fun _ => isStart_zero

end Counted

/-! ## Walking over the runs -/

/-- A loop `for (j = …; j < n; j += f[j])`, of at most `fuel` rounds: the indices at which its
rounds are, and where it ends. -/
def walk (f : ℕ → ℕ) (n : ℕ) : ℕ → ℕ → Option (List ℕ × ℕ)
  | 0, j => if j < n then none else some ([], j)
  | fuel + 1, j =>
    if j < n then (walk f n fuel (j + f j)).map fun w => (j :: w.1, w.2) else some ([], j)

section Walk

variable [DecidableEq κ] {fuel j : ℕ}

instance (d : ℕ → κ) : DecidablePred (IsStart d) := fun h =>
  inferInstanceAs (Decidable (h = 0 ∨ d (h - 1) ≠ d h))

/-- The starts among the `m` indices from `j` on. -/
def starts (d : ℕ → κ) (j m : ℕ) : List ℕ := (List.range' j m).filter (IsStart d)

lemma mem_starts : h ∈ starts d j m ↔ (j ≤ h ∧ h < j + m) ∧ IsStart d h := by
  rw [starts, List.mem_filter, List.mem_range'_1, decide_eq_true_iff]

@[simp] lemma starts_zero : starts d j 0 = [] := rfl

/-- A run has one start, its own. -/
lemma IsRun.starts_eq (hr : IsRun d h m n) (hs : IsStart d h) : starts d h m = [h] := by
  obtain ⟨k, rfl⟩ : ∃ k, m = k + 1 := ⟨m - 1, by have := hr.pos; omega⟩
  have hrest : (List.range' (h + 1) k).filter (IsStart d) = [] := by
    rw [List.filter_eq_nil_iff]
    intro i hi hstart
    rw [List.mem_range'_1] at hi
    exact hr.not_isStart (by omega) (by omega) (of_decide_eq_true hstart)
  rw [starts, List.range'_succ, List.filter_cons_of_pos (by simpa using hs), hrest]

/-- Behind a run. -/
lemma IsRun.starts_split (hr : IsRun d h m n) (hs : IsStart d h) :
    starts d h (n - h) = h :: starts d (h + m) (n - (h + m)) := by
  have hle := hr.le
  have hcut : n - h = m + (n - (h + m)) := by omega
  rw [hcut, starts, ← List.range'_append_1, List.filter_append]
  exact congrArg (· ++ _) (hr.starts_eq hs)

/-- The keys of a run are the first group of the keys from its start on. -/
lemma IsRun.splitBy (hr : IsRun d h m n) :
    (window d h (n - h)).splitBy (fun a b => a = b) =
      window d h m :: (window d (h + m) (n - (h + m))).splitBy fun a b => a = b := by
  have hle := hr.le
  have hpos := hr.pos
  have hkey : ∀ x ∈ window d h m, x = d h := by
    intro x hx
    obtain ⟨i, hi, rfl⟩ := mem_window.mp hx
    exact hr.eq i hi
  have hne : window d h m ≠ [] := by
    rw [← List.length_pos_iff, length_window]
    exact hpos
  have hchain : (window d h m).IsChain fun a b => decide (a = b) = true := by
    refine List.Pairwise.isChain (List.pairwise_of_forall_mem_list ?_)
    intro a ha b hb
    rw [hkey a ha, hkey b hb]
    exact decide_eq_true rfl
  rw [window_split (k := m) (by omega), Nat.sub_sub, List.splitBy_append ?_,
    List.splitBy_of_isChain hne hchain]
  · rfl
  · -- the first key behind the run is another one
    intro x hx y hy
    rw [hkey x (List.mem_of_getLast? hx)]
    cases hcut : n - (h + m) with
    | zero =>
      rw [hcut] at hy
      cases hy
    | succ k =>
      rw [hcut, window_cons] at hy
      obtain rfl : d (h + m) = y := by simpa using hy
      exact decide_eq_false fun heq => hr.max (by omega) heq.symm

/-- A walk visits the starts and ends at the cut. -/
theorem Counted.walk_eq (hc : Counted d f lp n) : walk f n n 0 = some (starts d 0 n, n) := by
  refine hc.induction (motive := fun j => ∀ fuel, n - j ≤ fuel →
    walk f n fuel j = some (starts d j (n - j), n)) ?_ ?_ n (Nat.sub_le n 0)
  · intro fuel _
    rw [Nat.sub_self]
    cases fuel with
    | zero => rw [walk, if_neg (lt_irrefl n), starts_zero]
    | succ fuel => rw [walk, if_neg (lt_irrefl n), starts_zero]
  · intro j hlt hs hr ih fuel hfuel
    have hpos := hr.pos
    obtain ⟨fuel, rfl⟩ : ∃ k, fuel = k + 1 := ⟨fuel - 1, by omega⟩
    rw [walk, if_pos hlt, ih fuel (by omega), Option.map_some, hr.starts_split hs]

/-- The runs are the groups of equal keys. -/
theorem Counted.splitBy_eq (hc : Counted d f lp n) :
    (window d 0 n).splitBy (fun a b => a = b) =
      (starts d 0 n).map fun h => window d h (f h) := by
  refine hc.induction (motive := fun j => (window d j (n - j)).splitBy (fun a b => a = b) =
    (starts d j (n - j)).map fun h => window d h (f h)) ?_ ?_
  · rw [Nat.sub_self, window_zero, List.splitBy_nil, starts_zero, List.map_nil]
  · intro j _ hs hr ih
    rw [hr.splitBy, hr.starts_split hs, List.map_cons, ih]

end Walk

/-! ## Items with a key -/

variable [DecidableEq κ]

/-- The items of a key, in order. -/
def demux (xs : List (κ × α)) (k : κ) : List α := (xs.filter (·.1 = k)).map Prod.snd

@[simp] lemma demux_append (xs ys : List (κ × α)) (k : κ) :
    demux (xs ++ ys) k = demux xs k ++ demux ys k := by
  rw [demux, List.filter_append, List.map_append]
  rfl

lemma demux_of_eq {xs : List (κ × α)} {k : κ} (h : ∀ x ∈ xs, x.1 = k) :
    demux xs k = xs.map Prod.snd := by
  rw [demux, List.filter_eq_self.mpr fun x hx => decide_eq_true (h x hx)]

lemma demux_of_ne {xs : List (κ × α)} {k : κ} (h : ∀ x ∈ xs, x.1 ≠ k) : demux xs k = [] := by
  rw [demux, List.filter_eq_nil_iff.mpr fun x hx => by simpa using h x hx]
  rfl

end Lib
