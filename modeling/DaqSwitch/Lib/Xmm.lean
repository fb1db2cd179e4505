import DaqSwitch.Lib.Bytes

/-!
# Registers of sixteen bytes

A register is a little memory: the byte at address 0 is the lowest one.  The intrinsics that set
and shuffle registers name their bytes and words from the highest to the lowest.
-/

namespace Lib

/-- The bytes of a word in the opposite order. -/
def bswap32 (x : BitVec 32) : BitVec 32 :=
  (x.extractLsb' 0 8 ++ x.extractLsb' 8 8 : BitVec 16) ++
    (x.extractLsb' 16 8 ++ x.extractLsb' 24 8 : BitVec 16)

/-- A register `__m128i`, which has the addresses below 16. -/
abbrev Xmm := Memory

namespace Xmm

/-- `_mm_set_epi32`. -/
def setEpi32 (x3 x2 x1 x0 : BitVec 32) : Xmm :=
  fun i => (([x0, x1, x2, x3] : List (BitVec 32)).getD (i / 4) 0).extractLsb' (8 * (i % 4)) 8

/-- `_mm_set_epi8`, whose arguments are listed. -/
def setEpi8 (es : List (BitVec 8)) : Xmm := fun i => es.reverse.getD i 0

/-- `_mm_shuffle_epi8`. -/
def shuffleEpi8 (a b : Xmm) : Xmm := fun i => if (b i).msb then 0 else a ((b i).toNat % 16)

/-- The words of a register, `u32` of an `rte_xmm_t`. -/
def u32 (a : Xmm) (i : ℕ) : BitVec 32 := a.le32 (4 * i)

/-- The mask that swaps the bytes of each word. -/
def bswapMask : Xmm := setEpi8 [12, 13, 14, 15, 8, 9, 10, 11, 4, 5, 6, 7, 0, 1, 2, 3]

/-- The words that a register was set from, each with its bytes swapped. -/
lemma u32_shuffle_bswapMask (x3 x2 x1 x0 : BitVec 32) {i : ℕ} (hi : i < 4) :
    u32 (shuffleEpi8 (setEpi32 x3 x2 x1 x0) bswapMask) i =
      bswap32 (([x0, x1, x2, x3] : List (BitVec 32)).getD i 0) := by
  interval_cases i <;> rfl

end Xmm

end Lib
