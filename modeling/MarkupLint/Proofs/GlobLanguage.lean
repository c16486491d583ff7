import Mathlib
import MarkupLint.Glob.Match
import MarkupLint.Proofs.Language

/-!
# The language of a glob

A glob stands for a language, part by part. What a glob matches is told twice: by the language, and
by the expression that is searched. Both are the same.

Results:
1. `language_anyByte`, `language_anyBytes`, `mem_anything`, `mem_slash`: the pieces that parts are
   made of.
2. `Part.language_toRegex`, `language_partsRegex`, `language_wholeRegex`: the parts.
3. `isPlain_wholeRegex`: a glob looks at nothing but the bytes that it matches.
4. `isMatch_iff`: a glob matches the paths in its language.
-/

open Computability

namespace MarkupLint.Glob
open MarkupLint.Regex

/-! ## Definitions -/

mutual

/-- What a part stands for, byte by byte. -/
def Part.language (d : Dialect) : Part → Language Char
  | .char c => {byteChars (String.utf8EncodeChar c)}
  | .anyChar => {w | ∃ c, w = [c] ∧ (d.slashIsApart = true → c ≠ '/')}
  | .anyChars => {w | d.slashIsApart = true → '/' ∉ w}
  | .leading => {w | w = [] ∨ ∃ u, w = u ++ ['/']}
  | .trailing => {w | ∃ u, w = '/' :: u}
  | .between => {w | w = ['/'] ∨ ∃ u, w = '/' :: (u ++ ['/'])}
  | .set negated ranges => {w | ∃ c, (setClass negated ranges).contains c = true ∧ w = [c]}
  | .branches bs => {w | branchesAreVoid bs = true ∧ w = [] ∨ w ∈ branchesLanguage d bs}

/-- What parts stand for one after the other. -/
def partsLanguage (d : Dialect) : List Part → Language Char
  | [] => 1
  | p :: ps => p.language d * partsLanguage d ps

/-- What one of the branches stands for, of those that stand for anything. -/
def branchesLanguage (d : Dialect) : List (List Part) → Language Char
  | [] => 0
  | ps :: bs => {w | partsAreVoid ps = false ∧ w ∈ partsLanguage d ps ∨ w ∈ branchesLanguage d bs}

end

/-- What a glob stands for -/
def globLanguage (d : Dialect) : List Part → Language Char
  | [.leading] => ⊤
  | ps => partsLanguage d ps

/-! ## 1. Pieces -/

theorem mem_anyByte {d : Dialect} {c : Char} :
    (if d.slashIsApart then CharClass.diff .any (.single '/') else .any).contains c = true ↔
      (d.slashIsApart = true → c ≠ '/') := by
  cases d.slashIsApart with
  | false => simp [CharClass.any]
  | true => simp [CharClass.any, CharClass.diff, CharClass.single]

theorem language_anyByte (d : Dialect) :
    (anyByte d).toMarked.language = Part.language d .anyChar := by
  ext w
  rw [anyByte, toMarked, Marked.mem_language_one, Part.language]
  constructor
  · rintro ⟨c, hc, rfl⟩
    exact ⟨c, rfl, mem_anyByte.mp hc⟩
  · rintro ⟨c, rfl, hc⟩
    exact ⟨c, mem_anyByte.mpr hc, rfl⟩

theorem language_anyBytes (d : Dialect) :
    (anyBytes d).toMarked.language = Part.language d .anyChars := by
  ext w
  rw [anyBytes, language_repeated, anyByte, toMarked, mem_star_one, Part.language]
  constructor
  · intro h hd hs
    exact mem_anyByte.mp (h '/' hs) hd rfl
  · intro h c hc
    refine mem_anyByte.mpr fun hd => ?_
    rintro rfl
    exact h hd hc

theorem mem_anything (w : List Char) : w ∈ anything.toMarked.language := by
  rw [anything, language_repeated, toMarked, mem_star_one]
  exact fun _ _ => rfl

theorem mem_slash {w : List Char} : w ∈ slash.toMarked.language ↔ w = ['/'] := by
  rw [slash, toMarked, Marked.mem_language_one]
  simp [CharClass.single]

/-! ## 2. Parts -/

theorem branchesRegex_eq_nil_iff (d : Dialect) (bs : List (List Part)) :
    branchesRegex d bs = [] ↔ branchesAreVoid bs = true := by
  induction bs with
  | nil => simp [branchesRegex, branchesAreVoid]
  | cons ps bs ih =>
    rw [branchesRegex, branchesAreVoid]
    cases partsAreVoid ps with
    | true => simpa using ih
    | false => simp

mutual

theorem Part.language_toRegex (d : Dialect) : (p : Part) →
    (p.toRegex d).toMarked.language = p.language d
  | .char c => by
    rw [Part.toRegex, language_sequence_one, Part.language]
  | .anyChar => by rw [Part.toRegex, language_anyByte]
  | .anyChars => by rw [Part.toRegex, language_anyBytes]
  | .leading => by
    ext w
    rw [Part.toRegex, toMarked, Marked.mem_language_alt, language_optional, toMarked,
      Marked.language, Part.language]
    constructor
    · rintro ((rfl | hw) | hw)
      · exact Or.inl rfl
      · exact Or.inr ⟨[], mem_slash.mp hw⟩
      · obtain ⟨u, -, v, hv, rfl⟩ := Language.mem_mul.mp hw
        exact Or.inr ⟨u, by rw [mem_slash.mp hv]⟩
    · rintro (rfl | ⟨u, rfl⟩)
      · exact Or.inl (Or.inl rfl)
      · exact Or.inr (Language.append_mem_mul (mem_anything u) (mem_slash.mpr rfl))
  | .trailing => by
    ext w
    rw [Part.toRegex, toMarked, Marked.language, Language.mem_mul, Part.language]
    constructor
    · rintro ⟨u, hu, v, -, rfl⟩
      exact ⟨v, by rw [mem_slash.mp hu]; rfl⟩
    · rintro ⟨u, rfl⟩
      exact ⟨['/'], mem_slash.mpr rfl, u, mem_anything u, rfl⟩
  | .between => by
    ext w
    rw [Part.toRegex, toMarked, Marked.mem_language_alt, mem_slash, toMarked, Marked.language,
      Language.mem_mul, toMarked, Marked.language, Part.language]
    constructor
    · rintro (hw | ⟨u, hu, v, hv, rfl⟩)
      · exact Or.inl hw
      · obtain ⟨v, -, x, hx, rfl⟩ := Language.mem_mul.mp hv
        exact Or.inr ⟨v, by rw [mem_slash.mp hu, mem_slash.mp hx]; rfl⟩
    · rintro (hw | ⟨u, rfl⟩)
      · exact Or.inl hw
      · exact Or.inr ⟨['/'], mem_slash.mpr rfl, u ++ ['/'],
          Language.append_mem_mul (mem_anything u) (mem_slash.mpr rfl), rfl⟩
  | .set negated ranges => rfl
  | .branches bs => by
    ext w
    rw [Part.toRegex, mem_choice, branchesRegex_eq_nil_iff, mem_branchesRegex d bs]
    rfl

theorem language_partsRegex (d : Dialect) : (ps : List Part) →
    (partsRegex d ps).toMarked.language = partsLanguage d ps
  | [] => rfl
  | p :: ps => by
    rw [partsRegex, toMarked, Marked.language, Part.language_toRegex d p, language_partsRegex d ps,
      partsLanguage]

theorem mem_branchesRegex (d : Dialect) : (bs : List (List Part)) → {w : List Char} →
    ((∃ a ∈ branchesRegex d bs, w ∈ a.toMarked.language) ↔ w ∈ branchesLanguage d bs)
  | [], w => by simp [branchesRegex, branchesLanguage, Language.notMem_zero]
  | ps :: bs, w => by
    have h1 := language_partsRegex d ps
    have h2 := mem_branchesRegex d bs (w := w)
    rw [branchesRegex, branchesLanguage]
    cases hv : partsAreVoid ps with
    | true =>
      rw [if_pos rfl, h2]
      exact ⟨Or.inr, fun hw => hw.resolve_left fun hp => Bool.noConfusion hp.1⟩
    | false =>
      rw [if_neg Bool.false_ne_true, List.exists_mem_cons_iff, h1, h2]
      exact or_congr_left (and_iff_right rfl).symm

end

/-! ## 3. No looks -/

mutual

theorem Part.isPlain_toRegex (d : Dialect) : (p : Part) → (p.toRegex d).isPlain = true
  | .char c => by
    rw [Part.toRegex]
    refine isPlain_sequence fun a ha => ?_
    obtain ⟨b, -, rfl⟩ := List.mem_map.mp ha
    rfl
  | .anyChar => rfl
  | .anyChars => rfl
  | .leading => rfl
  | .trailing => rfl
  | .between => rfl
  | .set negated ranges => rfl
  | .branches bs => by
    rw [Part.toRegex]
    exact isPlain_choice (isPlain_branchesRegex d bs)

theorem isPlain_partsRegex (d : Dialect) : (ps : List Part) → (partsRegex d ps).isPlain = true
  | [] => rfl
  | p :: ps => by
    rw [partsRegex, isPlain, Part.isPlain_toRegex d p, isPlain_partsRegex d ps]
    rfl

theorem isPlain_branchesRegex (d : Dialect) : (bs : List (List Part)) →
    ∀ a ∈ branchesRegex d bs, a.isPlain = true
  | [] => by simp [branchesRegex]
  | ps :: bs => by
    have h1 := isPlain_partsRegex d ps
    have h2 := isPlain_branchesRegex d bs
    rw [branchesRegex]
    split
    · exact h2
    · exact List.forall_mem_cons.mpr ⟨h1, h2⟩

end

theorem language_wholeRegex (d : Dialect) (ps : List Part) :
    (wholeRegex d ps).toMarked.language = globLanguage d ps := by
  fun_cases wholeRegex d ps with
  | case1 =>
    ext w
    exact iff_of_true (mem_anything w) trivial
  | case2 ps h =>
    rw [language_partsRegex, globLanguage]
    exact h

theorem isPlain_wholeRegex (d : Dialect) (ps : List Part) : (wholeRegex d ps).isPlain = true := by
  fun_cases wholeRegex d ps with
  | case1 => rfl
  | case2 ps h => exact isPlain_partsRegex d ps

/-! ## 4. Matching -/

/-- A glob matches the paths whose bytes are in its language. -/
theorem isMatch_iff {d : Dialect} {text : String} {ps : List Part} {g : Glob}
    (hp : parse d text.toList = .ok ps) (hg : Glob.ofText d text = .ok g) (p : Path) :
    g.isMatch p = true ↔ byteChars p.bytes ∈ globLanguage d ps := by
  rw [Glob.ofText, hp] at hg
  obtain rfl := Except.ok.inj hg
  rw [← language_wholeRegex]
  exact search_toMarked (isPlain_wholeRegex d ps) _

end MarkupLint.Glob
