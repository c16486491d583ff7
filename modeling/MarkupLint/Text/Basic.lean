/-!
# Texts

Comparison up to the case of ASCII letters, blanks, hexadecimal numbers, and lines. Two texts are
the same up to case when they have the same length and each pair of characters is equal up to the
case of ASCII letters; all other characters stand for themselves.
-/

namespace MarkupLint.Text

/-! ## ASCII case -/

/-- Equality up to ASCII case. -/
def sameIgnoringCase (s t : List Char) : Bool := s.map Char.toLower == t.map Char.toLower

/-- The text starts with the given one, up to ASCII case. -/
def startsIgnoringCase (start s : List Char) : Bool :=
  sameIgnoringCase start (s.take start.length)

theorem isAlpha_iff {c : Char} :
    c.isAlpha = true ↔ (65 ≤ c.toNat ∧ c.toNat ≤ 90) ∨ (97 ≤ c.toNat ∧ c.toNat ≤ 122) := by
  have h : c.isAlpha = (decide ('A'.val ≤ c.val ∧ c.val ≤ 'Z'.val) ||
      (decide ('a'.val ≤ c.val) && decide (c.val ≤ 'z'.val))) := rfl
  rw [h]
  simp only [Bool.or_eq_true, Bool.and_eq_true, decide_eq_true_eq, UInt32.le_iff_toNat_le]
  exact Iff.rfl

/-- Only capitals of ASCII have another small letter. -/
theorem toNat_toLower (c : Char) :
    c.toLower.toNat = if 65 ≤ c.toNat ∧ c.toNat ≤ 90 then c.toNat + 32 else c.toNat := by
  by_cases h : c.val ≥ 'A'.val ∧ c.val ≤ 'Z'.val
  · have hn : 65 ≤ c.toNat ∧ c.toNat ≤ 90 :=
      ⟨UInt32.le_iff_toNat_le.mp h.1, UInt32.le_iff_toNat_le.mp h.2⟩
    have hl : c.toLower = ⟨c.val + ('a'.val - 'A'.val), _⟩ := dif_pos h
    have hv : c.toLower.toNat = (c.val + ('a'.val - 'A'.val)).toNat := congrArg Char.toNat hl
    rw [if_pos hn, hv, UInt32.toNat_add]
    exact Nat.mod_eq_of_lt (Nat.lt_of_le_of_lt (Nat.add_le_add_right hn.2 32) (by decide))
  · have hn : ¬(65 ≤ c.toNat ∧ c.toNat ≤ 90) := fun hn =>
      h ⟨UInt32.le_iff_toNat_le.mpr hn.1, UInt32.le_iff_toNat_le.mpr hn.2⟩
    have hl : c.toLower = c := dif_neg h
    rw [if_neg hn, hl]

theorem isAlpha_of_toLower {c : Char} (h : c.toLower.isAlpha = true) : c.isAlpha = true := by
  have hn := toNat_toLower c
  rw [isAlpha_iff] at h ⊢
  split at hn <;> omega

/-- A character that is no letter is the small letter of itself alone. -/
theorem eq_of_toLower_eq {c d : Char} (hd : d.isAlpha = false) (h : c.toLower = d) : c = d := by
  have hn := toNat_toLower c
  rw [h] at hn
  split at hn
  · have ha : d.isAlpha = true := isAlpha_iff.mpr (Or.inr (by omega))
    rw [ha] at hd
    cases hd
  · exact Char.toNat_inj.mp hn.symm

theorem sameIgnoringCase_iff {s t : List Char} :
    sameIgnoringCase s t ↔ s.map Char.toLower = t.map Char.toLower := by
  simp [sameIgnoringCase]

theorem sameIgnoringCase_comm (s t : List Char) :
    sameIgnoringCase s t = sameIgnoringCase t s := BEq.comm

theorem sameIgnoringCase_trans {s t u : List Char} (h : sameIgnoringCase s t)
    (h' : sameIgnoringCase t u) : sameIgnoringCase s u :=
  sameIgnoringCase_iff.mpr ((sameIgnoringCase_iff.mp h).trans (sameIgnoringCase_iff.mp h'))

theorem sameIgnoringCase_length {s t : List Char} (h : sameIgnoringCase s t) :
    s.length = t.length := by
  have := congrArg List.length (sameIgnoringCase_iff.mp h)
  simpa using this

/-! ## Blanks -/

/-- The characters of the property `White_Space`. -/
def isBlank (c : Char) : Bool :=
  let n := c.toNat
  (9 ≤ n && n ≤ 13) || n == 32 || n == 0x85 || n == 0xA0 || n == 0x1680 ||
    (0x2000 ≤ n && n ≤ 0x200A) || n == 0x2028 || n == 0x2029 || n == 0x202F || n == 0x205F ||
    n == 0x3000

theorem isBlank_of_isAlpha {c : Char} (h : c.isAlpha = true) : isBlank c = false := by
  have hn := isAlpha_iff.mp h
  simp only [isBlank, Bool.or_eq_false_iff, Bool.and_eq_false_iff, decide_eq_false_iff_not,
    beq_eq_false_iff_ne, ne_eq]
  omega

def trimEnd (s : List Char) : List Char := (s.reverse.dropWhile isBlank).reverse

def trim (s : List Char) : List Char := trimEnd (s.dropWhile isBlank)

/-! ## Hexadecimal numbers -/

def isHexDigit (c : Char) : Bool :=
  c.isDigit || (decide ('A' ≤ c) && decide (c ≤ 'F')) || (decide ('a' ≤ c) && decide (c ≤ 'f'))

def hexDigitValue (c : Char) : Nat :=
  if c.isDigit then c.toNat - 48 else c.toLower.toNat - 87

/-- The number that digits stand for in the given base. -/
def numberOf (base : Nat) (digits : List Char) : Nat :=
  digits.foldl (fun n c => base * n + hexDigitValue c) 0

/-- The character of a code point, unless the number is none. -/
def charOfCode? (n : Nat) : Option Char := if n.isValidChar then some (Char.ofNat n) else none

/-- The character of hexadecimal digits. -/
def charOfHex? (digits : List Char) : Option Char :=
  if digits.isEmpty || !digits.all isHexDigit then none else charOfCode? (numberOf 16 digits)

/-! ## Lines

A line ends with a line feed, which a carriage return may precede. The last line need not end. -/

/-- Drops a carriage return at the front; the line is given in reverse. -/
def dropReturn : List Char → List Char
  | '\r' :: s => s
  | s => s

/-- Walks through the lines of a text; `line` holds the current one in reverse. -/
def linesFrom (line : List Char) : List Char → List (List Char)
  | [] => if line.isEmpty then [] else [line.reverse]
  | c :: s =>
    if c = '\n' then (dropReturn line).reverse :: linesFrom [] s else linesFrom (c :: line) s

/-- The lines of a text, without their ends. -/
def lines (s : List Char) : List (List Char) := linesFrom [] s

end MarkupLint.Text
