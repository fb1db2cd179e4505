import Mathlib

/-!
# Text with decimal numbers

Strings as lists of characters, with the few operations that programs use to build names from
numbers and to take them apart again: the decimal `str n`, search for a word, and reading a
prefix or a number off the front.  Names that consist of words and of numbers between
separators can be told apart because the digits end where the separator begins.
-/

namespace Lib.Text

abbrev Str := List Char

instance lawfulBEqStr : LawfulBEq Str := inferInstance

/-- The decimal representation of a number. -/
def str (n : ℕ) : Str := Nat.toDigits 10 n

/-- Whether a word occurs in a text. -/
def contains (s w : Str) : Bool := decide (w <:+: s)

/-- Whether a text begins with a word. -/
def startsWith (s w : Str) : Bool := decide (w <+: s)

/-- The rest of a text after a given prefix. -/
def stripPrefix (w s : Str) : Option Str := if w <+: s then some (s.drop w.length) else none

/-- Read a number off the front of a text: its value and the rest.  There must be a digit. -/
def readNat (s : Str) : Option (ℕ × Str) :=
  if s.takeWhile Char.isDigit = [] then none
  else some (Nat.ofDigitChars 10 (s.takeWhile Char.isDigit) 0, s.dropWhile Char.isDigit)

/-- The number that a text is. -/
def parseNat (s : Str) : Option ℕ :=
  match readNat s with
  | some (n, []) => some n
  | _ => none

/-- Split a text at the last occurrence of a character. -/
def rsplit (c : Char) (s : Str) : Option (Str × Str) :=
  if c ∈ s then
    some ((s.reverse.dropWhile (· ≠ c)).tail.reverse, (s.reverse.takeWhile (· ≠ c)).reverse)
  else none

lemma contains_iff {s w : Str} : contains s w = true ↔ w <:+: s := decide_eq_true_iff

lemma startsWith_iff {s w : Str} : startsWith s w = true ↔ w <+: s := decide_eq_true_iff

@[simp] lemma stripPrefix_append (w s : Str) : stripPrefix w (w ++ s) = some s := by
  simp [stripPrefix]

lemma rsplit_append_cons {c : Char} {s t : Str} (h : c ∉ t) :
    rsplit c (s ++ c :: t) = some (s, t) := by
  have hrev : (s ++ c :: t).reverse = t.reverse ++ c :: s.reverse := by simp
  have hall : ∀ d ∈ t.reverse, (decide (d ≠ c)) = true := by
    intro d hd
    refine decide_eq_true fun heq => h ?_
    exact heq ▸ List.mem_reverse.mp hd
  rw [rsplit, if_pos (by simp), hrev, List.dropWhile_append_of_pos hall,
    List.takeWhile_append_of_pos hall]
  simp

/-! ## Decimals -/

lemma isDigit_of_mem_str {n : ℕ} {c : Char} (h : c ∈ str n) : c.isDigit = true :=
  Nat.isDigit_of_mem_toDigits (by decide) (by decide) h

lemma str_ne_nil (n : ℕ) : str n ≠ [] := Nat.toDigits_ne_nil

lemma ofDigitChars_str (n : ℕ) : Nat.ofDigitChars 10 (str n) 0 = n := Nat.ofDigitChars_ten_toDigits

/-- A number below ten is one digit. -/
lemma str_of_lt {n : ℕ} (h : n < 10) : str n = [n.digitChar] := Nat.toDigits_of_lt_base h

lemma str_injective : Function.Injective str := by
  intro m n h
  have := congrArg (fun ds => Nat.ofDigitChars 10 ds 0) h
  simpa only [ofDigitChars_str] using this

lemma str_inj {m n : ℕ} : str m = str n ↔ m = n := str_injective.eq_iff

lemma not_mem_str {n : ℕ} {c : Char} (hc : c.isDigit = false) : c ∉ str n := by
  intro h
  rw [isDigit_of_mem_str h] at hc
  cases hc

/-- The digits of a number end where something else begins. -/
lemma takeWhile_str_append (n : ℕ) {rest : Str}
    (h : rest.takeWhile Char.isDigit = []) : (str n ++ rest).takeWhile Char.isDigit = str n := by
  rw [List.takeWhile_append_of_pos fun c hc => isDigit_of_mem_str hc, h, List.append_nil]

lemma dropWhile_str_append (n : ℕ) {rest : Str}
    (h : rest.takeWhile Char.isDigit = []) : (str n ++ rest).dropWhile Char.isDigit = rest := by
  have hsplit := List.takeWhile_append_dropWhile (p := Char.isDigit) (l := str n ++ rest)
  rw [takeWhile_str_append n h] at hsplit
  exact List.append_cancel_left hsplit

@[simp] lemma takeWhile_isDigit_cons {c : Char} (hc : c.isDigit = false) (s : Str) :
    (c :: s).takeWhile Char.isDigit = [] := by
  rw [List.takeWhile_cons, hc]
  rfl

lemma readNat_str_append (n : ℕ) {rest : Str} (h : rest.takeWhile Char.isDigit = []) :
    readNat (str n ++ rest) = some (n, rest) := by
  rw [readNat, takeWhile_str_append n h, dropWhile_str_append n h, if_neg (str_ne_nil n),
    ofDigitChars_str]

lemma parseNat_str (n : ℕ) : parseNat (str n) = some n := by
  have hnil : ([] : Str).takeWhile Char.isDigit = [] := rfl
  have h := readNat_str_append n hnil
  rw [List.append_nil] at h
  rw [parseNat, h]

/-- Numbers that are followed by something else are equal when one is read as a prefix of the
other. -/
lemma eq_of_prefix_str_append {m n : ℕ} {c d : Char} {s t : Str} (hc : c.isDigit = false)
    (hd : d.isDigit = false) (h : str m ++ c :: s <+: str n ++ d :: t) : m = n := by
  obtain ⟨u, hu⟩ := h
  rw [List.append_assoc, List.cons_append] at hu
  have htake := congrArg (List.takeWhile Char.isDigit) hu
  rw [takeWhile_str_append m (takeWhile_isDigit_cons hc _),
    takeWhile_str_append n (takeWhile_isDigit_cons hd _)] at htake
  exact str_injective htake

/-- A number at the end of a text begins after the last character that is not a digit. -/
lemma append_cons_str_inj {s t : Str} {c : Char} {m n : ℕ} (hc : c.isDigit = false) :
    s ++ c :: str m = t ++ c :: str n ↔ s = t ∧ m = n := by
  constructor
  · intro h
    have hrev := congrArg List.reverse h
    simp only [List.reverse_append, List.reverse_cons, List.append_assoc, List.cons_append,
      List.nil_append] at hrev
    have hdigits (k : ℕ) (u : Str) :
        ((str k).reverse ++ c :: u).takeWhile Char.isDigit = (str k).reverse := by
      rw [List.takeWhile_append_of_pos fun d hd => isDigit_of_mem_str (List.mem_reverse.mp hd),
        takeWhile_isDigit_cons hc, List.append_nil]
    have htake := congrArg (List.takeWhile Char.isDigit) hrev
    rw [hdigits, hdigits, List.reverse_inj] at htake
    refine ⟨?_, str_injective htake⟩
    rw [htake] at h
    exact List.append_cancel_right h
  · rintro ⟨rfl, rfl⟩
    rfl

/-! ## Words -/

/-- A word does not begin inside a part of the text without its first letter. -/
lemma cons_infix_append_iff {a : Char} {w s t : Str} (h : a ∉ s) :
    a :: w <:+: s ++ t ↔ a :: w <:+: t := by
  induction s with
  | nil => rfl
  | cons b s ih =>
    rw [List.mem_cons, not_or] at h
    rw [List.cons_append, List.infix_cons_iff, List.cons_prefix_cons, ih h.2]
    simp [h.1]

/-- A word without a letter of the text's end does not occur there. -/
lemma not_infix_of_mem {a : Char} {w s : Str} (hw : a ∈ w) (hs : a ∉ s) : ¬ w <:+: s :=
  fun h => hs (h.subset hw)

end Lib.Text
