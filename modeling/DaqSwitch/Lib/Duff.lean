import DaqSwitch.Lib.Window

/-!
# Duff's device

The loop, from `j = 0`,

  `switch (n % 4) { while (j < n) { case 0: B; case 3: B; case 2: B; case 1: B; } }`

with `j++` at the end of the body `B`,

jumps into the loop before it tests `j < n`.  It runs `B` for `j = 0, …, n - 1`, except that
for `n = 0` it runs it four times.
-/

namespace Lib

variable {σ α : Type*}

/-- `B; j++` on the pair of `j` and the rest of the state. -/
def advance (body : ℕ → σ → σ) (x : ℕ × σ) : ℕ × σ := (x.1 + 1, body x.1 x.2)

/-- The number of copies of the body that follow the label of the jump. -/
def duffEntry (n : ℕ) : ℕ := if n % 4 = 0 then 4 else n % 4

/-- `while (j < n)` with a body of four copies, at most `fuel` times. -/
def unrolled (body : ℕ → σ → σ) (n : ℕ) : ℕ → ℕ × σ → ℕ × σ
  | 0, x => x
  | fuel + 1, x => if x.1 < n then unrolled body n fuel ((advance body)^[4] x) else x

/-- Duff's device. -/
def duff (body : ℕ → σ → σ) (n : ℕ) (s : σ) : σ :=
  (unrolled body n n ((advance body)^[duffEntry n] (0, s))).2

variable {body : ℕ → σ → σ} {n : ℕ}

@[simp] lemma iterate_advance_fst (k : ℕ) (x : ℕ × σ) : ((advance body)^[k] x).1 = x.1 + k := by
  induction k with
  | zero => rfl
  | succ k ih => rw [Function.iterate_succ_apply', advance, ih, Nat.add_assoc]

/-- Once the rest is a multiple of four, the loop stops exactly at `n`. -/
lemma unrolled_eq {fuel k : ℕ} (s : σ) (hk : k ≤ n) (hdvd : 4 ∣ n - k) (hfuel : n - k ≤ fuel) :
    unrolled body n fuel ((advance body)^[k] (0, s)) = (advance body)^[n] (0, s) := by
  induction fuel generalizing k with
  | zero =>
    obtain rfl : k = n := by omega
    rfl
  | succ fuel ih =>
    rw [unrolled, iterate_advance_fst, Nat.zero_add]
    split
    · rw [← Function.iterate_add_apply, Nat.add_comm 4 k]
      exact ih (by omega) (by omega) (by omega)
    · obtain rfl : k = n := by omega
      rfl

lemma duff_of_pos (hn : 0 < n) (s : σ) : duff body n s = ((advance body)^[n] (0, s)).2 := by
  -- this fails for `n = 0`: the jump then makes four rounds too many
  have hentry : duffEntry n ≤ n ∧ 4 ∣ n - duffEntry n := by
    rw [duffEntry]
    split <;> omega
  rw [duff, unrolled_eq s hentry.1 hentry.2 (by omega)]

/-! ## The rounds -/

/-- The values of `j` for which the body runs. -/
def duffRounds (n : ℕ) : List ℕ := List.range (if n = 0 then 4 else n)

lemma iterate_advance_snd (k : ℕ) (s : σ) :
    ((advance body)^[k] (0, s)).2 = (List.range k).foldl (fun s j => body j s) s := by
  induction k with
  | zero => rfl
  | succ k ih =>
    rw [Function.iterate_succ_apply', advance, iterate_advance_fst, Nat.zero_add, ih,
      List.range_succ, List.foldl_append]
    rfl

lemma duff_eq_foldl (n : ℕ) (s : σ) :
    duff body n s = (duffRounds n).foldl (fun s j => body j s) s := by
  rcases Nat.eq_zero_or_pos n with rfl | hn
  · exact iterate_advance_snd 4 s
  · rw [duff_of_pos hn, iterate_advance_snd, duffRounds, if_neg (by omega)]

/-- A part of the state that evolves on its own. -/
lemma duff_map {τ : Type*} {body' : ℕ → τ → τ} {f : σ → τ}
    (h : ∀ j s, f (body j s) = body' j (f s)) (n : ℕ) (s : σ) :
    f (duff body n s) = duff body' n (f s) := by
  rw [duff_eq_foldl, duff_eq_foldl]
  exact (List.foldl_hom f fun s j => (h j s).symm).symm

/-- The log of a loop that notes `g j` in round `j`. -/
lemma duff_log {β : Type*} (g : ℕ → β) (n : ℕ) (l : List β) :
    duff (fun j l => l ++ [g j]) n l = l ++ (duffRounds n).map g := by
  rw [duff_eq_foldl]
  induction duffRounds n generalizing l with
  | nil => rw [List.foldl_nil, List.map_nil, List.append_nil]
  | cons j js ih =>
    rw [List.foldl_cons, ih, List.map_cons, List.append_assoc, List.singleton_append]

/-! ## Copying -/

/-- The body that copies entry `src + j` of `m` to entry `dst + j`. -/
def copyEntry (dst : ℕ) (m : ℕ → α) (src : ℕ) (j : ℕ) (t : ℕ → α) : ℕ → α :=
  Function.update t (dst + j) (m (src + j))

lemma iterate_copyEntry (dst : ℕ) (m : ℕ → α) (src n : ℕ) (t : ℕ → α) :
    ((advance (copyEntry dst m src))^[n] (0, t)).2 = blit t dst (window m src n) := by
  induction n with
  | zero =>
    funext i
    simp [blit]
  | succ n ih =>
    rw [Function.iterate_succ_apply', advance, iterate_advance_fst, Nat.zero_add, ih, copyEntry,
      window_succ, blit_concat, length_window]

lemma duff_copyEntry (hn : 0 < n) (dst : ℕ) (m : ℕ → α) (src : ℕ) (t : ℕ → α) :
    duff (copyEntry dst m src) n t = blit t dst (window m src n) := by
  rw [duff_of_pos hn, iterate_copyEntry]

end Lib
