import Mathlib
import MarkupLint.Regex.Marked

/-!
# The language of a marked expression

A marked expression without looks stands for a language, and its marks for what is left of the
matches that are under way. A step by a character takes the first character off both. So the search
by an expression that is anchored at both ends decides whether the whole text is in the language.

Results:
1. `cons_mem_mul`, `cons_mem_kstar`: the first character of a product and of a repetition.
2. `standing_skips`, `standing_ends`: the standing of an expression, by the empty text.
3. `pending_step`: a step by a character.
4. `search_anchored`: the search.
5. `isPlain_toMarked`, `pending_toMarked`, `search_toMarked`: expressions as they are before a
   search.
6. `mem_star_one`, `language_sequence_one`, `mem_choice`: the languages of the usual forms.
-/

open Computability

namespace MarkupLint.Regex

/-! ## 1. Products and repetitions -/

theorem cons_mem_mul {L M : Language Char} {c : Char} {w : List Char} :
    c :: w ∈ L * M ↔ (∃ u v, w = u ++ v ∧ c :: u ∈ L ∧ v ∈ M) ∨ ([] ∈ L ∧ c :: w ∈ M) := by
  rw [Language.mem_mul]
  constructor
  · rintro ⟨u, hu, v, hv, h⟩
    cases u with
    | nil => exact Or.inr ⟨hu, h ▸ hv⟩
    | cons d u =>
      obtain ⟨rfl, rfl⟩ := List.cons.inj h
      exact Or.inl ⟨u, v, rfl, hu, hv⟩
  · rintro (⟨u, v, rfl, hu, hv⟩ | ⟨hn, hw⟩)
    · exact ⟨c :: u, hu, v, hv, rfl⟩
    · exact ⟨[], hn, c :: w, hw, rfl⟩

theorem cons_mem_kstar {L : Language Char} {c : Char} {w : List Char} :
    c :: w ∈ L∗ ↔ ∃ u v, w = u ++ v ∧ c :: u ∈ L ∧ v ∈ L∗ := by
  rw [Language.mem_kstar_iff_exists_nonempty]
  constructor
  · rintro ⟨S, h, hS⟩
    cases S with
    | nil => cases h
    | cons s S =>
      obtain ⟨hs, hne⟩ := hS s (by simp)
      cases s with
      | nil => exact absurd rfl hne
      | cons d u =>
        rw [List.flatten_cons, List.cons_append] at h
        obtain ⟨rfl, rfl⟩ := List.cons.inj h
        exact ⟨u, S.flatten, rfl, hs, Language.join_mem_kstar fun y hy => (hS y (by simp [hy])).1⟩
  · rintro ⟨u, v, rfl, hu, hv⟩
    obtain ⟨S, rfl, hS⟩ := Language.mem_kstar_iff_exists_nonempty.mp hv
    refine ⟨(c :: u) :: S, by simp, ?_⟩
    intro y hy
    rcases List.mem_cons.mp hy with rfl | hy
    · exact ⟨hu, by simp⟩
    · exact hS y hy

theorem nil_mem_mul {L M : Language Char} : [] ∈ L * M ↔ [] ∈ L ∧ [] ∈ M := by
  rw [Language.mem_mul]
  constructor
  · rintro ⟨u, hu, v, hv, h⟩
    obtain ⟨rfl, rfl⟩ := List.append_eq_nil_iff.mp h
    exact ⟨hu, hv⟩
  · rintro ⟨hu, hv⟩
    exact ⟨[], hu, [], hv, rfl⟩

namespace Marked

/-! ## Definitions -/

/-- No part of the expression looks at what is around it. -/
def isPlain : Marked → Bool
  | empty => true
  | look _ => false
  | one _ _ => true
  | cat a b => a.isPlain && b.isPlain
  | alt a b => a.isPlain && b.isPlain
  | star a => a.isPlain

/-- The texts that the expression matches, whatever its marks. -/
def language : Marked → Language Char
  | empty => 1
  | look _ => 0
  | one _ set => {w | ∃ c, set.contains c = true ∧ w = [c]}
  | cat a b => a.language * b.language
  | alt a b => a.language + b.language
  | star a => a.language∗

/-- The texts that bring a match that is under way, by the marks, to its end. -/
def pending : Marked → Language Char
  | empty => 0
  | look _ => 0
  | one mark _ => {w | mark = true ∧ w = []}
  | cat a b => a.pending * b.language + b.pending
  | alt a b => a.pending + b.pending
  | star a => a.pending * a.language∗

theorem mem_language_one {mark : Bool} {set : CharClass} {w : List Char} :
    w ∈ (one mark set).language ↔ ∃ c, set.contains c = true ∧ w = [c] := Iff.rfl

theorem mem_language_alt {a b : Marked} {w : List Char} :
    w ∈ (alt a b).language ↔ w ∈ a.language ∨ w ∈ b.language := Iff.rfl

theorem mem_pending_one {mark : Bool} {set : CharClass} {w : List Char} :
    w ∈ (one mark set).pending ↔ mark = true ∧ w = [] := Iff.rfl

theorem mem_pending_cat {a b : Marked} {w : List Char} :
    w ∈ (cat a b).pending ↔ w ∈ a.pending * b.language ∨ w ∈ b.pending := Iff.rfl

theorem mem_pending_alt {a b : Marked} {w : List Char} :
    w ∈ (alt a b).pending ↔ w ∈ a.pending ∨ w ∈ b.pending := Iff.rfl

/-! ## 2. The empty text -/

theorem standing_skips {a : Marked} (h : a.isPlain = true) (p : Place) :
    (a.standing p).skips = true ↔ [] ∈ a.language := by
  induction a with
  | empty => exact iff_of_true rfl Language.nil_mem_one
  | look l => cases h
  | one mark set =>
    rw [mem_language_one]
    simp [standing]
  | cat a b iha ihb =>
    obtain ⟨ha, hb⟩ := Bool.and_eq_true_iff.mp h
    rw [language, nil_mem_mul, ← iha ha, ← ihb hb]
    exact Bool.and_eq_true_iff
  | alt a b iha ihb =>
    obtain ⟨ha, hb⟩ := Bool.and_eq_true_iff.mp h
    rw [mem_language_alt, ← iha ha, ← ihb hb]
    exact Bool.or_eq_true_iff
  | star a _ => exact iff_of_true rfl (Language.nil_mem_kstar _)

theorem standing_ends {a : Marked} (h : a.isPlain = true) (p : Place) :
    (a.standing p).ends = true ↔ [] ∈ a.pending := by
  induction a with
  | empty => exact iff_of_false (by simp [standing]) (Language.notMem_zero _)
  | look l => cases h
  | one mark set =>
    rw [mem_pending_one]
    simp [standing]
  | cat a b iha ihb =>
    obtain ⟨ha, hb⟩ := Bool.and_eq_true_iff.mp h
    rw [mem_pending_cat, nil_mem_mul, ← iha ha, ← standing_skips hb p, ← ihb hb]
    simp [standing, Standing.andThen]
  | alt a b iha ihb =>
    obtain ⟨ha, hb⟩ := Bool.and_eq_true_iff.mp h
    rw [mem_pending_alt, ← iha ha, ← ihb hb]
    exact Bool.or_eq_true_iff
  | star a ih =>
    rw [pending, nil_mem_mul, ← ih h, and_iff_left (Language.nil_mem_kstar _)]
    rfl

/-! ## 3. Steps -/

theorem isPlain_step (a : Marked) (p : Place) (c : Char) (entered : Bool) :
    (a.step p c entered).1.isPlain = a.isPlain := by
  induction a generalizing entered with
  | empty => rfl
  | look l => rfl
  | one mark set => rfl
  | cat a b iha ihb => simp [step, isPlain, iha, ihb]
  | alt a b iha ihb => simp [step, isPlain, iha, ihb]
  | star a ih => simp [step, isPlain, ih]

theorem language_step (a : Marked) (p : Place) (c : Char) (entered : Bool) :
    (a.step p c entered).1.language = a.language := by
  induction a generalizing entered with
  | empty => rfl
  | look l => rfl
  | one mark set => rfl
  | cat a b iha ihb => simp [step, language, iha, ihb]
  | alt a b iha ihb => simp [step, language, iha, ihb]
  | star a ih => simp [step, language, ih]

/-- What stands behind an expression is entered if the expression is left out or has ended. -/
theorem passes_step {a : Marked} (h : a.isPlain = true) (p : Place) (c : Char) (entered : Bool) :
    (a.step p c entered).2.passes entered = true ↔
      (entered = true ∧ [] ∈ a.language) ∨ [] ∈ a.pending := by
  rw [step_standing, Standing.passes, ← standing_skips h p, ← standing_ends h p]
  simp

/-- The texts that go on with a language, after those of which one character was read. -/
theorem mem_mul_of_read {L M N K : Language Char} {c : Char} {e : Prop}
    (h : ∀ u, u ∈ L ↔ c :: u ∈ M ∨ (e ∧ c :: u ∈ N)) (w : List Char) :
    w ∈ L * K ↔ (∃ u v, w = u ++ v ∧ c :: u ∈ M ∧ v ∈ K) ∨
      (e ∧ ∃ u v, w = u ++ v ∧ c :: u ∈ N ∧ v ∈ K) := by
  rw [Language.mem_mul]
  constructor
  · rintro ⟨u, hu, v, hv, rfl⟩
    rcases (h u).mp hu with hu | ⟨he, hu⟩
    · exact .inl ⟨u, v, rfl, hu, hv⟩
    · exact .inr ⟨he, u, v, rfl, hu, hv⟩
  · rintro (⟨u, v, rfl, hu, hv⟩ | ⟨he, u, v, rfl, hu, hv⟩)
    · exact ⟨u, (h u).mpr (.inl hu), v, hv, rfl⟩
    · exact ⟨u, (h u).mpr (.inr ⟨he, hu⟩), v, hv, rfl⟩

/-- After a character, a match that is under way is one that was under way before it, or one that
starts with it. -/
theorem pending_step {a : Marked} (h : a.isPlain = true) (p : Place) (c : Char) (entered : Bool)
    (w : List Char) : w ∈ (a.step p c entered).1.pending ↔
      c :: w ∈ a.pending ∨ (entered = true ∧ c :: w ∈ a.language) := by
  induction a generalizing entered w with
  | empty =>
    simp [step, pending, language, Language.mem_one, Language.notMem_zero]
  | look l => cases h
  | one mark set =>
    rw [step, mem_pending_one, mem_pending_one, mem_language_one]
    constructor
    · rintro ⟨he, rfl⟩
      obtain ⟨he, hc⟩ := Bool.and_eq_true_iff.mp he
      exact Or.inr ⟨he, c, hc, rfl⟩
    · rintro (⟨_, hn⟩ | ⟨he, d, hd, hw⟩)
      · cases hn
      · obtain ⟨rfl, rfl⟩ := List.cons.inj hw
        exact ⟨by rw [he, hd]; rfl, rfl⟩
  | cat a b iha ihb =>
    obtain ⟨ha, hb⟩ := Bool.and_eq_true_iff.mp h
    -- the second part is entered behind the first, and at once if the first can be left out
    rw [step, mem_pending_cat, mem_pending_cat, language_step, mem_mul_of_read (iha ha entered),
      ihb hb, passes_step ha, language, cons_mem_mul, cons_mem_mul]
    grind
  | alt a b iha ihb =>
    obtain ⟨ha, hb⟩ := Bool.and_eq_true_iff.mp h
    rw [step, mem_pending_alt, mem_pending_alt, mem_language_alt, iha ha, ihb hb]
    tauto
  | star a ih =>
    -- a round is entered with the whole, and again wherever a round ends
    have hagain : (entered || (a.standing p).ends) = true ↔ entered = true ∨ [] ∈ a.pending := by
      rw [Bool.or_eq_true, standing_ends (a := a) h p]
    rw [step, pending, pending, language_step, mem_mul_of_read (ih h _), hagain, language,
      cons_mem_mul, ← cons_mem_kstar]
    grind

/-! ## 4. The search -/

def anchored (a : Marked) : Marked := .cat (.look .textStart) (.cat a (.look .textEnd))

/-- The first character takes the start of the text along. -/
theorem search_anchored_cons (a : Marked) (p : Option Char) (c : Char) (s : List Char) :
    a.anchored.search p (c :: s) =
      (a.step ⟨p, some c⟩ c p.isNone).1.anchored.search (some c) s := by
  have hs : a.anchored.step ⟨p, some c⟩ c true =
      ((a.step ⟨p, some c⟩ c p.isNone).1.anchored, ⟨false, false⟩) := by
    cases p <;> simp [anchored, step, Standing.passes, Standing.andThen, Look.holds]
  rw [search, hs]
  simp only [Standing.accepts, Bool.or_self, Bool.false_or]

theorem search_anchored_after {a : Marked} (h : a.isPlain = true) (b : Char) (s : List Char) :
    a.anchored.search (some b) s = true ↔ s ∈ a.pending := by
  induction s generalizing a b with
  | nil =>
    rw [← standing_ends h ⟨some b, none⟩]
    simp [anchored, search, standing, Standing.accepts, Standing.andThen, Look.holds]
  | cons c s ih =>
    have hp := isPlain_step a ⟨some b, some c⟩ c false
    rw [search_anchored_cons, Option.isNone_some, ih (hp.trans h), pending_step h]
    simp

/-- The search by an anchored expression without marks decides its language. -/
theorem search_anchored {a : Marked} (h : a.isPlain = true) (hu : ∀ w, w ∉ a.pending)
    (s : List Char) : a.anchored.search none s = true ↔ s ∈ a.language := by
  cases s with
  | nil =>
    have he : (a.standing ⟨none, none⟩).ends = false := by
      rw [← Bool.not_eq_true, standing_ends h]
      exact hu []
    rw [← standing_skips h ⟨none, none⟩]
    simp [anchored, search, standing, Standing.accepts, Standing.andThen, Look.holds, he]
  | cons c s =>
    have hp := isPlain_step a ⟨none, some c⟩ c true
    rw [search_anchored_cons, Option.isNone_none, search_anchored_after (hp.trans h),
      pending_step h]
    simp [hu]

/-! ## 5. Expressions without marks -/

theorem isPlain_times {a : Marked} (h : a.isPlain = true) (n : Nat) :
    (a.times n).isPlain = true := by
  fun_induction times a n with
  | case1 => rfl
  | case2 => exact h
  | case3 n _ ih => simp [isPlain, h, ih]

theorem isPlain_upTo {a : Marked} (h : a.isPlain = true) (n : Nat) :
    (a.upTo n).isPlain = true := by
  induction n with
  | zero => rfl
  | succ n ih => simp [upTo, isPlain, h, ih]

theorem pending_times {a : Marked} (h : a.pending = 0) (n : Nat) : (a.times n).pending = 0 := by
  fun_induction times a n with
  | case1 => rfl
  | case2 => exact h
  | case3 n _ ih => rw [pending, h, ih, zero_mul, zero_add]

theorem pending_upTo {a : Marked} (h : a.pending = 0) (n : Nat) : (a.upTo n).pending = 0 := by
  induction n with
  | zero => rfl
  | succ n ih => rw [upTo, pending, pending, pending, h, ih, zero_mul, zero_add, zero_add]

end Marked

end MarkupLint.Regex

namespace MarkupLint.Regex

/-- No part of the expression looks at what is around it. -/
def isPlain : Regex → Bool
  | empty => true
  | look _ => false
  | one _ => true
  | cat a b => a.isPlain && b.isPlain
  | alt a b => a.isPlain && b.isPlain
  | repeated a _ _ => a.isPlain

theorem isPlain_toMarked {r : Regex} (h : r.isPlain = true) : r.toMarked.isPlain = true := by
  induction r with
  | empty => rfl
  | look l => cases h
  | one set => rfl
  | cat a b iha ihb =>
    obtain ⟨ha, hb⟩ := Bool.and_eq_true_iff.mp h
    simp [toMarked, Marked.isPlain, iha ha, ihb hb]
  | alt a b iha ihb =>
    obtain ⟨ha, hb⟩ := Bool.and_eq_true_iff.mp h
    simp [toMarked, Marked.isPlain, iha ha, ihb hb]
  | repeated a low high ih =>
    have ha := ih h
    cases high with
    | none => simp [toMarked, Marked.isPlain, Marked.isPlain_times ha, ha]
    | some high =>
      simp [toMarked, Marked.isPlain, Marked.isPlain_times ha, Marked.isPlain_upTo ha]

/-- Before a search no match is under way. -/
theorem pending_toMarked (r : Regex) : r.toMarked.pending = 0 := by
  induction r with
  | empty => rfl
  | look l => rfl
  | one set =>
    ext w
    simp [toMarked, Marked.mem_pending_one, Language.notMem_zero]
  | cat a b iha ihb => rw [toMarked, Marked.pending, iha, ihb, zero_mul, zero_add]
  | alt a b iha ihb => rw [toMarked, Marked.pending, iha, ihb, zero_add]
  | repeated a low high ih =>
    cases high with
    | none =>
      simp only [toMarked]
      rw [Marked.pending, Marked.pending_times ih, Marked.pending, ih, zero_mul, zero_mul, zero_add]
    | some high =>
      simp only [toMarked]
      rw [Marked.pending, Marked.pending_times ih, Marked.pending_upTo ih, zero_mul, zero_add]

/-- The search by a plain expression that is anchored at both ends decides its language. -/
theorem search_toMarked {r : Regex} (h : r.isPlain = true) (s : List Char) :
    r.toMarked.anchored.search none s = true ↔ s ∈ r.toMarked.language := by
  refine Marked.search_anchored (isPlain_toMarked h) (fun w => ?_) s
  rw [pending_toMarked]
  exact Language.notMem_zero w

/-! ## 6. Usual forms -/

theorem mem_star_one {mark : Bool} {set : CharClass} {w : List Char} :
    w ∈ (Marked.star (.one mark set)).language ↔ ∀ c ∈ w, set.contains c = true := by
  rw [Marked.language]
  induction w with
  | nil => exact iff_of_true (Language.nil_mem_kstar _) (by simp)
  | cons c w ih =>
    rw [cons_mem_kstar, List.forall_mem_cons]
    constructor
    · rintro ⟨u, v, rfl, hu, hv⟩
      obtain ⟨d, hd, h⟩ := Marked.mem_language_one.mp hu
      obtain ⟨rfl, rfl⟩ := List.cons.inj h
      exact ⟨hd, ih.mp hv⟩
    · rintro ⟨hc, hw⟩
      exact ⟨[], w, rfl, Marked.mem_language_one.mpr ⟨c, hc, rfl⟩, ih.mpr hw⟩

theorem language_repeated (r : Regex) :
    (Regex.repeated r 0 none).toMarked.language = (Marked.star r.toMarked).language := by
  have h : (if r.isEmptyOnly then min 0 1 else 0) = 0 := by split <;> rfl
  simp only [toMarked, h]
  exact one_mul _

theorem language_optional (r : Regex) :
    (Regex.repeated r 0 (some 1)).toMarked.language = 1 + r.toMarked.language := by
  have h : (if r.isEmptyOnly then min 0 1 else 0) = 0 := by split <;> rfl
  have k : (if r.isEmptyOnly then min 1 1 else 1) = 1 := by split <;> rfl
  simp only [toMarked, h, k]
  simp only [Marked.times, Marked.upTo, Marked.language, one_mul, mul_one]

theorem language_sequence_one (cs : List Char) :
    (sequence (cs.map fun c => .one (.single c))).toMarked.language = ({cs} : Language Char) := by
  induction cs with
  | nil => rfl
  | cons c cs ih =>
    have hc : (Regex.one (.single c)).toMarked.language = ({[c]} : Language Char) := by
      ext w
      rw [toMarked, Marked.mem_language_one]
      simp [CharClass.single]
      rfl
    cases cs with
    | nil => exact hc
    | cons d cs =>
      rw [List.map_cons] at ih
      rw [List.map_cons, List.map_cons]
      rw [sequence, toMarked, Marked.language, ih, hc]
      · ext w
        rw [Language.mem_mul]
        constructor
        · rintro ⟨u, rfl, v, rfl, rfl⟩
          rfl
        · rintro rfl
          exact ⟨[c], rfl, d :: cs, rfl, rfl⟩
      · simp

theorem mem_choice {as : List Regex} {w : List Char} : w ∈ (choice as).toMarked.language ↔
    as = [] ∧ w = [] ∨ ∃ a ∈ as, w ∈ a.toMarked.language := by
  induction as with
  | nil => simp [choice, toMarked, Marked.language, Language.mem_one]
  | cons a as ih =>
    cases as with
    | nil => simp [choice]
    | cons b as =>
      rw [choice, toMarked, Marked.mem_language_alt, ih]
      · simp
      · simp

theorem isPlain_sequence {as : List Regex} (h : ∀ a ∈ as, a.isPlain = true) :
    (sequence as).isPlain = true := by
  induction as with
  | nil => rfl
  | cons a as ih =>
    obtain ⟨ha, has⟩ := List.forall_mem_cons.mp h
    cases as with
    | nil => exact ha
    | cons b as =>
      rw [sequence, isPlain, ha, ih has]
      · rfl
      · simp

theorem isPlain_choice {as : List Regex} (h : ∀ a ∈ as, a.isPlain = true) :
    (choice as).isPlain = true := by
  induction as with
  | nil => rfl
  | cons a as ih =>
    obtain ⟨ha, has⟩ := List.forall_mem_cons.mp h
    cases as with
    | nil => exact ha
    | cons b as =>
      rw [choice, isPlain, ha, ih has]
      · rfl
      · simp

end MarkupLint.Regex
