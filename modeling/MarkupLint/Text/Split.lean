/-!
# Splitting a text at a landmark

A text is a list of characters. The splits here walk the text once and return the part before the
landmark and the part from it on; nothing is lost (`breakSuffix_append`, `breakAfter_append`), and
the second part starts with the landmark (`breakSuffix_snd`).
-/

namespace MarkupLint.Text

/-- Walks to the first suffix that passes the test; `seen` holds, in reverse, what was passed. -/
def breakSuffixFrom (test : List Char → Bool) (seen : List Char) :
    List Char → List Char × List Char
  | [] => (seen.reverse, [])
  | c :: s => if test (c :: s) then (seen.reverse, c :: s) else breakSuffixFrom test (c :: seen) s

/-- Splits a text before the first non-empty suffix that passes the test, or at its end. -/
def breakSuffix (test : List Char → Bool) (s : List Char) : List Char × List Char :=
  breakSuffixFrom test [] s

/-- Walks through the first character that passes the test. -/
def breakAfterFrom (test : Char → Bool) (seen : List Char) :
    List Char → Option (List Char × List Char)
  | [] => none
  | c :: s => if test c then some ((c :: seen).reverse, s) else breakAfterFrom test (c :: seen) s

/-- Splits a text after the first character that passes the test; `none` if there is none. -/
def breakAfter (test : Char → Bool) (s : List Char) : Option (List Char × List Char) :=
  breakAfterFrom test [] s

/-! ## The first part of a split -/

theorem breakSuffixFrom_eq (test : List Char → Bool) (seen s : List Char) :
    breakSuffixFrom test seen s =
      (seen.reverse ++ (breakSuffix test s).1, (breakSuffix test s).2) := by
  induction s generalizing seen with
  | nil => simp [breakSuffixFrom, breakSuffix]
  | cons c s ih =>
    by_cases h : test (c :: s)
    · simp [breakSuffixFrom, breakSuffix, h]
    · have hc : breakSuffix test (c :: s) = breakSuffixFrom test [c] s := by
        simp [breakSuffix, breakSuffixFrom, h]
      rw [hc, breakSuffixFrom, if_neg h, ih (c :: seen), ih [c]]
      simp

theorem breakSuffix_nil (test : List Char → Bool) : breakSuffix test [] = ([], []) := rfl

theorem breakSuffix_cons (test : List Char → Bool) (c : Char) (s : List Char) :
    breakSuffix test (c :: s) =
      if test (c :: s) then ([], c :: s)
      else (c :: (breakSuffix test s).1, (breakSuffix test s).2) := by
  by_cases h : test (c :: s)
  · simp [breakSuffix, breakSuffixFrom, h]
  · rw [breakSuffix, breakSuffixFrom, if_neg h, breakSuffixFrom_eq]
    simp [h]

/-- A split loses nothing. -/
@[simp]
theorem breakSuffix_append (test : List Char → Bool) (s : List Char) :
    (breakSuffix test s).1 ++ (breakSuffix test s).2 = s := by
  induction s with
  | nil => rfl
  | cons c s ih =>
    rw [breakSuffix_cons]
    split
    · rfl
    · simp [ih]

/-- The second part is empty or passes the test. -/
theorem breakSuffix_snd (test : List Char → Bool) (s : List Char) :
    (breakSuffix test s).2 = [] ∨ test (breakSuffix test s).2 = true := by
  induction s with
  | nil => exact .inl rfl
  | cons c s ih =>
    rw [breakSuffix_cons]
    split
    · rename_i h
      exact .inr h
    · exact ih

theorem breakAfterFrom_eq (test : Char → Bool) (seen s : List Char) :
    breakAfterFrom test seen s =
      (breakAfter test s).map fun r => (seen.reverse ++ r.1, r.2) := by
  induction s generalizing seen with
  | nil => simp [breakAfterFrom, breakAfter]
  | cons c s ih =>
    by_cases h : test c
    · simp [breakAfterFrom, breakAfter, h]
    · have hc : breakAfter test (c :: s) = breakAfterFrom test [c] s := by
        simp [breakAfter, breakAfterFrom, h]
      rw [hc, breakAfterFrom, if_neg h, ih (c :: seen), ih [c]]
      simp [Function.comp_def]

theorem breakAfter_nil (test : Char → Bool) : breakAfter test [] = none := rfl

theorem breakAfter_cons (test : Char → Bool) (c : Char) (s : List Char) :
    breakAfter test (c :: s) =
      if test c then some ([c], s)
      else (breakAfter test s).map fun r => (c :: r.1, r.2) := by
  by_cases h : test c
  · simp [breakAfter, breakAfterFrom, h]
  · rw [breakAfter, breakAfterFrom, if_neg h, breakAfterFrom_eq]
    simp [h]

/-- A split loses nothing. -/
theorem breakAfter_append {test : Char → Bool} {s a b : List Char}
    (h : breakAfter test s = some (a, b)) : a ++ b = s := by
  induction s generalizing a with
  | nil =>
    rw [breakAfter_nil] at h
    cases h
  | cons c s ih =>
    rw [breakAfter_cons] at h
    split at h
    · simp only [Option.some.injEq, Prod.mk.injEq] at h
      simp [← h.1, ← h.2]
    · simp only [Option.map_eq_some_iff, Prod.exists, Prod.mk.injEq] at h
      obtain ⟨a', b', h', rfl, rfl⟩ := h
      simp [ih h']

end MarkupLint.Text
