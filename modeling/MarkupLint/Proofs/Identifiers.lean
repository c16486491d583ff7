import MarkupLint.Lint.IdMap
import MarkupLint.Text.Basic
import MarkupLint.Text.Utf8

/-!
# Identifiers, by their characters and by their bytes

The characters of identifiers are given by sets, the spans of which are read from a text. What is
found in a set lies in one of its spans, so that nothing before the first ones of all spans is
found: letters and numbers begin with the digit zero, the characters of identifiers with the hyphen.

Texts in UTF-8 are in the order of their bytes exactly if they are in the order of their characters,
and so are identifiers.

Results:
1. `CharSet.exists_of_search`, `CharSet.le_of_contains`: where the members of a set lie.
2. `le_of_isAlphabetic`, `le_of_isNumeric`, `Lint.le_of_isIdChar`: the sets for identifiers.
3. `utf8EncodeChar_lt`: the bytes of two characters differ as the characters do, whatever follows.
4. `utf8_lt_iff`, `RuleId.lt_iff_bytes`: the two orders of texts, and of identifiers.
-/

namespace MarkupLint.Unicode

/-! ## 1. Members of a set -/

/-- A code point that is found lies in one of the spans. -/
theorem CharSet.exists_of_search {spans : Array Span} {n low high : Nat}
    (h : search spans n low high = true) : ∃ s ∈ spans, s.contains n = true := by
  fun_induction search spans n low high with
  | case1 => cases h
  | case2 low high hlt middle s hs hn ih => exact ih h
  | case3 low high hlt middle s hs hn hl ih => exact ih h
  | case4 low high hlt middle s hs hn hl => exact ⟨s, Array.mem_of_getElem? hs, h⟩
  | case5 => cases h

/-- The spans are given by the words of the text. The text is taken as a list of characters, since
to decode a long literal takes too long. -/
theorem CharSet.le_of_contains {s : List Char} {b : Nat} {c : Char}
    (hs : (wordsFrom [] s).all (fun w => decide (b ≤ (Span.ofText w).first)) = true)
    (h : (ofText (String.ofList s)).contains c = true) : b ≤ c.toNat := by
  obtain ⟨span, hm, hc⟩ := exists_of_search h
  rw [ofText, words, String.toList_ofList, List.mem_toArray, List.mem_map] at hm
  obtain ⟨w, hw, rfl⟩ := hm
  have hb := of_decide_eq_true (List.all_eq_true.mp hs w hw)
  rw [Span.contains, Bool.and_eq_true, Bool.and_eq_true] at hc
  exact Nat.le_trans hb (of_decide_eq_true hc.1.1)

/-! ## 2. Letters, numbers and identifiers -/

theorem le_of_isAlphanum {c : Char} (h : c.isAlphanum = true) : 48 ≤ c.toNat := by
  rcases Bool.or_eq_true_iff.mp h with h | h
  · have ha := Text.isAlpha_iff.mp h
    omega
  · exact (Char.isDigit_iff_toNat.mp h).1

-- The literals of the sets become lists of some thousand characters.
set_option maxRecDepth 60000 in
theorem le_of_isAlphabetic {c : Char} (h : isAlphabetic c = true) : 48 ≤ c.toNat := by
  simp only [isAlphabetic, inCategories, Bool.or_eq_true, List.any_cons, List.any_nil,
    Bool.false_eq_true, or_false] at h
  rcases h with (((h | h | h | h | h | h | h) | h) | h) | h
  · exact le_of_isAlphanum (Bool.or_eq_true_iff.mpr (.inl h))
  all_goals exact CharSet.le_of_contains (by decide +kernel) h

set_option maxRecDepth 60000 in
theorem le_of_isNumeric {c : Char} (h : isNumeric c = true) : 48 ≤ c.toNat := by
  simp only [isNumeric, Bool.or_eq_true] at h
  rcases h with (h | h) | h
  all_goals exact CharSet.le_of_contains (by decide +kernel) h

end MarkupLint.Unicode

namespace MarkupLint.Lint

/-- No white space and no control character is part of an identifier. -/
theorem le_of_isIdChar {c : Char} (h : isIdChar c = true) : 45 ≤ c.toNat := by
  simp only [isIdChar, Unicode.isAlphanumeric, Bool.or_eq_true, beq_iff_eq] at h
  rcases h with ((h | rfl) | rfl) | (h | h) | h
  · exact Nat.le_trans (by decide) (Unicode.le_of_isAlphanum h)
  · decide
  · decide
  · exact Nat.le_trans (by decide) (Unicode.le_of_isAlphanum h)
  · exact Nat.le_trans (by decide) (Unicode.le_of_isAlphabetic h)
  · exact Nat.le_trans (by decide) (Unicode.le_of_isNumeric h)

end MarkupLint.Lint

namespace MarkupLint.Text

/-! ## 3. The order of characters in bytes -/

/-- The first difference between the digits of two numbers in base 64 decides. -/
theorem digits_lt {n m : Nat} (h : n < m) :
    n / 262144 < m / 262144 ∨ n / 262144 = m / 262144 ∧ (n / 4096 % 64 < m / 4096 % 64 ∨
      n / 4096 % 64 = m / 4096 % 64 ∧ (n / 64 % 64 < m / 64 % 64 ∨
        n / 64 % 64 = m / 64 % 64 ∧ n % 64 < m % 64)) := by
  omega

/-- The bytes of a smaller character come first: its first byte announces no more bytes, and the
bytes hold its digits in base 64. -/
theorem utf8EncodeChar_lt {c d : Char} (h : c < d) (s t : List UInt8) :
    String.utf8EncodeChar c ++ s < String.utf8EncodeChar d ++ t := by
  have hn : c.val.toNat < d.val.toNat := UInt32.lt_iff_toNat_lt.mp h
  have hd : d.val.toNat < 0x110000 := by
    have hv := d.valid
    simp only [UInt32.isValidChar, Nat.isValidChar] at hv
    omega
  have hdigits := digits_lt hn
  have tail : ∀ k, (k % 64 + 128) % 256 = k % 64 + 128 := by omega
  have two : ∀ k, (k % 32 + 192) % 256 = k % 32 + 192 := by omega
  have three : ∀ k, (k % 16 + 224) % 256 = k % 16 + 224 := by omega
  have four : ∀ k < 0x110000, (k / 262144 % 8 + 240) % 256 = k / 262144 + 240 := by omega
  unfold String.utf8EncodeChar
  simp only
  repeat' split
  all_goals
    simp only [List.cons_append, List.nil_append, List.cons_lt_cons_iff, UInt8.lt_iff_toNat_lt,
      ← UInt8.toNat_inj, UInt8.toNat_ofNat', tail, two, three, four _ hd,
      four _ (Nat.lt_trans hn hd)]
    omega

/-! ## 4. The order of texts and identifiers in bytes -/

theorem utf8_lt {s t : List Char} (h : s < t) : utf8 s < utf8 t := by
  induction h with
  | nil =>
    rw [utf8, utf8, List.flatMap_nil, List.flatMap_cons]
    obtain ⟨b, bs, hb⟩ := List.exists_cons_of_ne_nil String.utf8EncodeChar_ne_nil
    rw [hb]
    exact .nil
  | rel h => exact utf8EncodeChar_lt h _ _
  | cons _ ih => exact List.append_left_lt ih

/-- Texts are in the order of their bytes exactly if they are in the order of their characters. -/
theorem utf8_lt_iff {s t : List Char} : utf8 s < utf8 t ↔ s < t := by
  refine ⟨fun h => Decidable.byContradiction fun hn => ?_, utf8_lt⟩
  by_cases hts : t < s
  · exact List.lt_asymm h (utf8_lt hts)
  · have he : s = t := List.le_antisymm (List.not_lt.mp hts) (List.not_lt.mp hn)
    exact List.lt_irrefl _ (he ▸ h)

end MarkupLint.Text

namespace MarkupLint.Lint

theorem RuleId.lt_iff_bytes {a b : RuleId} :
    a < b ↔ Text.utf8 a.text.toList < Text.utf8 b.text.toList :=
  String.lt_iff.trans Text.utf8_lt_iff.symm

end MarkupLint.Lint
