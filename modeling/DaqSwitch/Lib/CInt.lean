import Mathlib

/-!
# Shifts of the C constant one

In `1 << n` the constant is a 32-bit signed `int`.  The shift is defined for `n < 32` (with
`1 << 31` the smallest `int`, as compilers document it); beyond that the language leaves
the value open.  `OneShl` is the value that a given compiler produces: fixed where the
language fixes it, arbitrary elsewhere.
-/

namespace Lib

/-- The value of the expression `1 << n` in a compiled program. -/
structure OneShl where
  val : ℕ → BitVec 32
  val_of_lt : ∀ n < 32, val n = 1#32 <<< n

namespace OneShl

/-- Whether the language defines the value of `1 << n`. -/
def Defined (n : ℕ) : Prop := n < 32

instance (n : ℕ) : Decidable (Defined n) := inferInstanceAs (Decidable (n < 32))

/-- The compiler that shifts modulo the width of `int`. -/
def modular : OneShl := ⟨fun n => 1#32 <<< (n % 32), fun n hn => by rw [Nat.mod_eq_of_lt hn]⟩

variable (C : OneShl)

/-- `1 << n` as an operand of a 64-bit operator: the `int` is sign extended. -/
def val64 (n : ℕ) : BitVec 64 := (C.val n).signExtend 64

/-- Below 31 the operand has the one bit that was meant. -/
lemma getLsbD_val64_of_lt {n i : ℕ} (hn : n < 31) (hi : i < 64) :
    (C.val64 n).getLsbD i = decide (i = n) := by
  rw [val64, C.val_of_lt n (by omega), BitVec.getLsbD_signExtend]
  have hmsb : (1#32 <<< n).msb = false := by
    rw [BitVec.msb_eq_getLsbD_last, BitVec.getLsbD_shiftLeft]
    have : 31 - n ≠ 0 := by omega
    simp [BitVec.getLsbD_one, this]
  by_cases hi' : i < 32
  · rw [if_pos hi', BitVec.getLsbD_shiftLeft, BitVec.getLsbD_one]
    by_cases hin : i = n
    · subst hin
      simp [hi, hi']
    · by_cases hlt : i < n
      · simp [hlt, hin]
      · have : i - n ≠ 0 := by omega
        simp [this, hin]
  · have hin : i ≠ n := by omega
    rw [if_neg hi', hmsb]
    simp [hin]

/-- `1 << 31` is negative and sets every bit from 31 on. -/
lemma getLsbD_val64_31 {i : ℕ} (hi : i < 64) : (C.val64 31).getLsbD i = decide (31 ≤ i) := by
  rw [val64, C.val_of_lt 31 (by omega)]
  have : ∀ i < 64, ((1#32 <<< 31).signExtend 64).getLsbD i = decide (31 ≤ i) := by decide
  exact this i hi

/-! ## Masks -/

/-- The 64-bit mask that `mask |= (1 << n)` builds from the given shifts. -/
def maskOf (ns : List ℕ) : BitVec 64 := ns.foldl (fun mask n => mask ||| C.val64 n) 0

@[simp] lemma maskOf_nil : C.maskOf [] = 0 := rfl

lemma maskOf_concat (ns : List ℕ) (n : ℕ) : C.maskOf (ns ++ [n]) = C.maskOf ns ||| C.val64 n := by
  rw [maskOf, List.foldl_append]
  rfl

lemma getLsbD_maskOf (ns : List ℕ) (b : ℕ) :
    (C.maskOf ns).getLsbD b = true ↔ ∃ n ∈ ns, (C.val64 n).getLsbD b = true := by
  induction ns using List.reverseRecOn with
  | nil => simp
  | append_singleton ns n ih =>
    rw [maskOf_concat, BitVec.getLsbD_or, Bool.or_eq_true, ih]
    constructor
    · rintro (⟨m, hm, hb⟩ | hb)
      · exact ⟨m, List.mem_append_left _ hm, hb⟩
      · exact ⟨n, by simp, hb⟩
    · rintro ⟨m, hm, hb⟩
      rcases List.mem_append.mp hm with hm | hm
      · exact Or.inl ⟨m, hm, hb⟩
      · exact Or.inr (List.mem_singleton.mp hm ▸ hb)

lemma and_ne_zero_iff (x y : BitVec 64) :
    x &&& y ≠ 0 ↔ ∃ b < 64, x.getLsbD b = true ∧ y.getLsbD b = true := by
  constructor
  · intro h
    by_contra hno
    refine h (BitVec.eq_of_getLsbD_eq ?_)
    intro b hb
    rw [BitVec.getLsbD_and]
    have := fun hx hy => hno ⟨b, hb, hx, hy⟩
    cases hx : x.getLsbD b <;> cases hy : y.getLsbD b <;> simp_all
  · rintro ⟨b, -, hx, hy⟩ h
    have := congrArg (·.getLsbD b) h
    simp [hx, hy] at this

/-- A test of a mask fails when it fails for each shift that the mask is built from. -/
lemma maskOf_and_eq_zero_iff (ns : List ℕ) (test : BitVec 64) :
    C.maskOf ns &&& test = 0 ↔ ∀ n ∈ ns, C.val64 n &&& test = 0 := by
  have hzero (x : BitVec 64) :
      x &&& test = 0 ↔ ∀ b < 64, x.getLsbD b = true → test.getLsbD b = false := by
    rw [← not_iff_not, ← ne_eq, and_ne_zero_iff]
    simp
  simp only [hzero, getLsbD_maskOf]
  constructor
  · intro h n hn b hb hnb
    exact h b hb ⟨n, hn, hnb⟩
  · rintro h b hb ⟨n, hn, hnb⟩
    exact h n hn b hb hnb

/-- While all shifts are defined, the test of a mask against `1 << i` tells whether `i` was
set: the sign bits of `1 << 31` are only met by `1 << 31` itself. -/
lemma maskOf_and_ne_zero_iff {ns : List ℕ} (hns : ∀ n ∈ ns, Defined n) {i : ℕ} (hi : Defined i) :
    C.maskOf ns &&& C.val64 i ≠ 0 ↔ i ∈ ns := by
  rw [and_ne_zero_iff]
  -- bit `b` of `1 << n` within the defined range
  have hbit : ∀ n < 32, ∀ b < 64,
      ((C.val64 n).getLsbD b = true ↔ b = n ∨ n = 31 ∧ 31 ≤ b) := by
    intro n hn b hb
    rcases Nat.lt_or_ge n 31 with hn' | hn'
    · rw [C.getLsbD_val64_of_lt hn' hb, decide_eq_true_iff]
      omega
    · obtain rfl : n = 31 := by omega
      rw [C.getLsbD_val64_31 hb, decide_eq_true_iff]
      omega
  have hi' : i < 32 := hi
  constructor
  · rintro ⟨b, hb, hmask, htest⟩
    obtain ⟨n, hn, hnb⟩ := (C.getLsbD_maskOf ns b).mp hmask
    have hn' : n < 32 := hns n hn
    rw [hbit n hn' b hb] at hnb
    rw [hbit i hi' b hb] at htest
    obtain rfl : i = n := by omega
    exact hn
  · intro hmem
    have hself := (hbit i hi' i (by omega)).mpr (Or.inl rfl)
    exact ⟨i, by omega, (C.getLsbD_maskOf ns i).mpr ⟨i, hmem, hself⟩, hself⟩

end OneShl

end Lib
