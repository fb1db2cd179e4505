import DaqSwitch.Lib.Machine

/-!
# A lazily refilled token bucket

A bucket of `cap` tokens is filled up again by the first call that comes more than `period`
after the last refill, and every call takes some of the tokens that it finds.  However the
calls are spread, those in a window of `w` time units take at most
`cap * (w / period + 2)` tokens: the ones left over from before the window, and one filling
for each refill inside it.
-/

namespace Lib

/-- The tokens left and the time of the last refill. -/
structure Bucket where
  tokens : ℕ
  last : ℕ

namespace Bucket

variable (cap period : ℕ)

/-- The bucket as a call at time `now` finds it. -/
def refill (now : ℕ) (b : Bucket) : Bucket :=
  if period < now - b.last then ⟨cap, now⟩ else b

/-- A call, given by its time and the tokens it takes; there is no call that takes more than
there are. -/
def serve (call : ℕ × ℕ) (b : Bucket) : Option Bucket :=
  let b := b.refill cap period call.1
  if call.2 ≤ b.tokens then some { b with tokens := b.tokens - call.2 } else none

/-- The tokens taken by the calls from time `lo` to time `hi`. -/
def taken (lo hi : ℕ) (calls : List (ℕ × ℕ)) : ℕ :=
  ((calls.filter fun call => lo ≤ call.1 ∧ call.1 ≤ hi).map Prod.snd).sum

@[simp] lemma taken_nil (lo hi : ℕ) : taken lo hi [] = 0 := rfl

lemma taken_cons (lo hi : ℕ) (call : ℕ × ℕ) (calls : List (ℕ × ℕ)) :
    taken lo hi (call :: calls) =
      (if lo ≤ call.1 ∧ call.1 ≤ hi then call.2 else 0) + taken lo hi calls := by
  by_cases h : lo ≤ call.1 ∧ call.1 ≤ hi <;> simp [taken, h]

lemma taken_eq_zero {lo hi : ℕ} {calls : List (ℕ × ℕ)} (h : ∀ call ∈ calls, hi < call.1) :
    taken lo hi calls = 0 := by
  induction calls with
  | nil => rfl
  | cons call calls ih =>
    have hcall := h call List.mem_cons_self
    rw [taken_cons, ih fun c hc => h c (List.mem_cons_of_mem _ hc), if_neg (by omega)]

variable {cap period}

lemma serve_of_le {call : ℕ × ℕ} {b : Bucket} (h : call.2 ≤ (b.refill cap period call.1).tokens) :
    serve cap period call b = some
      ⟨(b.refill cap period call.1).tokens - call.2, (b.refill cap period call.1).last⟩ :=
  if_pos h

/-- What a call does: it leaves the time of the refill and takes from the rest, or it comes
late enough to take from a full bucket. -/
lemma serve_cases {call : ℕ × ℕ} {b b' : Bucket} (h : serve cap period call b = some b') :
    (call.2 ≤ b.tokens ∧ b' = ⟨b.tokens - call.2, b.last⟩) ∨
      (period < call.1 - b.last ∧ call.2 ≤ cap ∧ b' = ⟨cap - call.2, call.1⟩) := by
  unfold serve refill at h
  by_cases hlate : period < call.1 - b.last
  · simp only [hlate, if_true] at h
    split at h
    · next hle => exact Or.inr ⟨hlate, hle, by simpa using h.symm⟩
    · cases h
  · simp only [hlate, if_false] at h
    split at h
    · next hle => exact Or.inl ⟨hle, by simpa using h.symm⟩
    · cases h

/-- The bucket never holds more than its capacity. -/
lemma serve_tokens_le {call : ℕ × ℕ} {b b' : Bucket} (h : serve cap period call b = some b')
    (hb : b.tokens ≤ cap) : b'.tokens ≤ cap := by
  obtain ⟨-, rfl⟩ | ⟨-, -, rfl⟩ := serve_cases h
  · exact le_trans (Nat.sub_le _ _) hb
  · exact Nat.sub_le _ _

variable {calls : List (ℕ × ℕ)} {b b' : Bucket}

/-- Up to time `hi` no more is taken than the tokens left and one filling for every period
since the last refill. -/
lemma taken_le_of_last (hperiod : 0 < period) (lo : ℕ) {hi : ℕ}
    (h : Machine.run (serve cap period) calls b = some b')
    (hsorted : (calls.map Prod.fst).Pairwise (· ≤ ·)) :
    taken lo hi calls ≤ b.tokens + cap * ((hi - b.last) / period) := by
  induction calls generalizing b with
  | nil => simp
  | cons call calls ih =>
    obtain ⟨b₁, h₁, h₂⟩ := Machine.run_cons_eq_some.mp h
    rw [List.map_cons, List.pairwise_cons] at hsorted
    have hrest := ih h₂ hsorted.2
    have hle : taken lo hi (call :: calls) ≤ call.2 + taken lo hi calls := by
      rw [taken_cons]
      split <;> omega
    obtain ⟨hx, rfl⟩ | ⟨hlate, hx, rfl⟩ := serve_cases h₁
    · simp only at hrest
      omega
    · -- a refill: the calls of the window are not over only if a whole period lies behind
      rcases Nat.lt_or_ge hi call.1 with hover | hin
      · have hzero : taken lo hi (call :: calls) = 0 := by
          refine taken_eq_zero ?_
          intro c hc
          rcases List.mem_cons.mp hc with rfl | hc
          · exact hover
          · exact lt_of_lt_of_le hover (hsorted.1 _ (List.mem_map_of_mem hc))
        omega
      · have hdiv : (hi - call.1) / period + 1 ≤ (hi - b.last) / period := by
          rw [← Nat.add_div_right _ hperiod]
          exact Nat.div_le_div_right (by omega)
        have hmul := Nat.mul_le_mul_left cap hdiv
        rw [Nat.mul_add, Nat.mul_one] at hmul
        simp only at hrest
        omega

/-- When all calls come after the window has begun, they take the tokens left and a filling
for the first refill, and then one for every period of the window. -/
lemma taken_le_of_ge (hperiod : 0 < period) {lo w : ℕ}
    (h : Machine.run (serve cap period) calls b = some b')
    (hsorted : (calls.map Prod.fst).Pairwise (· ≤ ·)) (hge : ∀ call ∈ calls, lo ≤ call.1) :
    taken lo (lo + w) calls ≤ b.tokens + cap * (w / period + 1) := by
  induction calls generalizing b with
  | nil => simp
  | cons call calls ih =>
    obtain ⟨b₁, h₁, h₂⟩ := Machine.run_cons_eq_some.mp h
    rw [List.map_cons, List.pairwise_cons] at hsorted
    have hlo := hge call List.mem_cons_self
    have hle : taken lo (lo + w) (call :: calls) ≤ call.2 + taken lo (lo + w) calls := by
      rw [taken_cons]
      split <;> omega
    obtain ⟨hx, rfl⟩ | ⟨-, hx, rfl⟩ := serve_cases h₁
    · have hrest := ih h₂ hsorted.2 fun c hc => hge c (List.mem_cons_of_mem _ hc)
      simp only at hrest
      omega
    · have hrest : taken lo (lo + w) calls ≤ _ := taken_le_of_last hperiod lo h₂ hsorted.2
      have hdiv : (lo + w - call.1) / period ≤ w / period := Nat.div_le_div_right (by omega)
      have hmul := Nat.mul_le_mul_left cap hdiv
      rw [Nat.mul_add, Nat.mul_one]
      simp only at hrest
      omega

/-- The rate limit of a bucket. -/
theorem taken_window_le (hperiod : 0 < period) (lo w : ℕ)
    (h : Machine.run (serve cap period) calls b = some b')
    (hsorted : (calls.map Prod.fst).Pairwise (· ≤ ·)) (hb : b.tokens ≤ cap) :
    taken lo (lo + w) calls ≤ cap * (w / period + 2) := by
  induction calls generalizing b with
  | nil => simp
  | cons call calls ih =>
    rcases Nat.lt_or_ge call.1 lo with hbefore | hge
    · -- the call is before the window and does not count
      obtain ⟨b₁, h₁, h₂⟩ := Machine.run_cons_eq_some.mp h
      rw [List.map_cons, List.pairwise_cons] at hsorted
      rw [taken_cons, if_neg (by omega), Nat.zero_add]
      exact ih h₂ hsorted.2 (serve_tokens_le h₁ hb)
    · have hall : ∀ c ∈ call :: calls, lo ≤ c.1 := by
        rw [List.map_cons, List.pairwise_cons] at hsorted
        intro c hc
        rcases List.mem_cons.mp hc with rfl | hc
        · exact hge
        · exact le_trans hge (hsorted.1 _ (List.mem_map_of_mem hc))
      have := taken_le_of_ge hperiod h hsorted hall (w := w)
      calc taken lo (lo + w) (call :: calls)
          ≤ b.tokens + cap * (w / period + 1) := this
        _ ≤ cap + cap * (w / period + 1) := by omega
        _ = cap * (w / period + 2) := by ring

end Bucket

end Lib
