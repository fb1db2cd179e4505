import Mathlib

/-!
# Loads from a byte memory

A memory is a byte for each address.  Loads of two, four and eight bytes put the byte of the
lowest address into the lowest bits, as a little-endian machine does; `be16` reads a number
in network order.  A part of a loaded word is the load of that part.
-/

namespace Lib

abbrev Memory := ℕ → BitVec 8

namespace Memory

variable (m : Memory) (a : ℕ)

def le16 : BitVec 16 := m (a + 1) ++ m a

def le32 : BitVec 32 := m.le16 (a + 2) ++ m.le16 a

def le64 : BitVec 64 := m.le32 (a + 4) ++ m.le32 a

/-- A 16-bit number in network order. -/
def be16 : BitVec 16 := m a ++ m (a + 1)

/-! ## Parts of words -/

@[simp] lemma le16_low : (m.le16 a).extractLsb' 0 8 = m a := BitVec.extractLsb'_append_eq_right

@[simp] lemma le16_high : (m.le16 a).extractLsb' 8 8 = m (a + 1) :=
  BitVec.extractLsb'_append_eq_left

@[simp] lemma le32_low : (m.le32 a).extractLsb' 0 16 = m.le16 a :=
  BitVec.extractLsb'_append_eq_right

@[simp] lemma le32_high : (m.le32 a).extractLsb' 16 16 = m.le16 (a + 2) :=
  BitVec.extractLsb'_append_eq_left

@[simp] lemma le64_low : (m.le64 a).extractLsb' 0 32 = m.le32 a :=
  BitVec.extractLsb'_append_eq_right

@[simp] lemma le64_high : (m.le64 a).extractLsb' 32 32 = m.le32 (a + 4) :=
  BitVec.extractLsb'_append_eq_left

/-- A part of the lower half of a word. -/
lemma le64_of_le {i w : ℕ} (h : i + w ≤ 32) :
    (m.le64 a).extractLsb' i w = (m.le32 a).extractLsb' i w :=
  BitVec.extractLsb'_append_eq_of_add_le h

/-- A part of the upper half of a word. -/
lemma le64_of_ge {i w : ℕ} (h : 32 ≤ i) :
    (m.le64 a).extractLsb' i w = (m.le32 (a + 4)).extractLsb' (i - 32) w :=
  BitVec.extractLsb'_append_eq_of_le h

lemma le32_of_le {i w : ℕ} (h : i + w ≤ 16) :
    (m.le32 a).extractLsb' i w = (m.le16 a).extractLsb' i w :=
  BitVec.extractLsb'_append_eq_of_add_le h

variable {m a} {b : ℕ}

end Memory

end Lib
