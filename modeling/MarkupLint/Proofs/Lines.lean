import Mathlib.Data.List.DropRight
import MarkupLint.Text.Basic

/-!
# Lines of a text

Everything about the lines of a text follows from one equation: a text falls at its first line feed
into a line, without the carriage return that may end it, and the lines of what follows.

Results:
1. `lines_feed`, `lines_of_not_mem`: the lines of a text.
2. `lines_written`: lines that are written one by one are read back.
3. `trim_withoutReturn`, `trim_eq_nil_iff`: lines and blanks.
4. `firstVisible_eq`: the first line that is not blank, without its blanks, in one pass.
-/

namespace MarkupLint.Text

/-! ## Definitions -/

/-- A line without a carriage return at its end. -/
def withoutReturn (line : List Char) : List Char := (dropReturn line.reverse).reverse

/-- The first line with a character that is not blank, without the blanks at its ends. -/
def firstVisible (s : List Char) : Option (List Char) :=
  ((lines s).map trim).find? fun line => !line.isEmpty

/-- What stands from the first character that is not blank up to the next line feed or the end,
without the blanks at its end. -/
def stretch (s : List Char) : List Char :=
  ((s.dropWhile isBlank).takeWhile (· ≠ '\n')).rdropWhile isBlank

/-! ## 1. The lines of a text -/

theorem linesFrom_of_not_mem {s : List Char} (h : '\n' ∉ s) (line : List Char) :
    linesFrom line s = if line.reverse ++ s = [] then [] else [line.reverse ++ s] := by
  induction s generalizing line with
  | nil => cases line <;> simp [linesFrom]
  | cons c s ih =>
    rw [List.mem_cons, not_or] at h
    rw [linesFrom, if_neg (Ne.symm h.1), ih h.2]
    simp

theorem linesFrom_feed {l : List Char} (h : '\n' ∉ l) (line s : List Char) :
    linesFrom line (l ++ '\n' :: s) = withoutReturn (line.reverse ++ l) :: lines s := by
  induction l generalizing line with
  | nil => simp [linesFrom, withoutReturn, lines]
  | cons c l ih =>
    rw [List.mem_cons, not_or] at h
    rw [List.cons_append, linesFrom, if_neg (Ne.symm h.1), ih h.2]
    simp

/-- A text falls at its first line feed into a line and the lines of what follows. -/
theorem lines_feed {l : List Char} (h : '\n' ∉ l) (s : List Char) :
    lines (l ++ '\n' :: s) = withoutReturn l :: lines s := linesFrom_feed h [] s

/-- A text without a line feed is one line, unless it is empty. -/
theorem lines_of_not_mem {s : List Char} (h : '\n' ∉ s) :
    lines s = if s = [] then [] else [s] := linesFrom_of_not_mem h []

/-! ## 2. Lines that are written -/

/-- A line either ends with a carriage return or stays as it is. -/
theorem withoutReturn_cases (l : List Char) :
    withoutReturn l = l ∨ l = withoutReturn l ++ ['\r'] := by
  unfold withoutReturn
  cases hr : l.reverse with
  | nil => exact Or.inl (List.reverse_eq_nil_iff.mp hr).symm
  | cons c t =>
    rw [List.reverse_eq_cons_iff] at hr
    by_cases hc : c = '\r'
    · subst hc
      exact Or.inr hr
    · have hd : dropReturn (c :: t) = c :: t := by
        unfold dropReturn
        split
        · next h => exact absurd (List.cons.inj h).1 hc
        · rfl
      rw [hd, List.reverse_cons, hr]
      exact Or.inl rfl

theorem withoutReturn_of_not_mem {l : List Char} (h : '\r' ∉ l) : withoutReturn l = l := by
  rcases withoutReturn_cases l with hl | hl
  · exact hl
  · rw [hl] at h
    exact absurd (by simp) h

/-- Lines that are written one by one, each ended by a line feed, are read back. -/
theorem lines_written {ls : List (List Char)} (h : ∀ l ∈ ls, '\n' ∉ l ∧ '\r' ∉ l) :
    lines (ls.flatMap (· ++ ['\n'])) = ls := by
  induction ls with
  | nil => rfl
  | cons l ls ih =>
    rw [List.forall_mem_cons] at h
    rw [List.flatMap_cons, List.append_assoc, List.singleton_append, lines_feed h.1.1,
      withoutReturn_of_not_mem h.1.2, ih h.2]

/-! ## 3. Blanks -/

theorem trimEnd_concat {c : Char} (h : isBlank c = true) (s : List Char) :
    trimEnd (s ++ [c]) = trimEnd s := by
  rw [trimEnd, trimEnd, List.reverse_concat, List.dropWhile_cons_of_pos h]

theorem trim_concat {c : Char} (h : isBlank c = true) (s : List Char) :
    trim (s ++ [c]) = trim s := by
  rw [trim, trim, List.dropWhile_append]
  split
  · next hs =>
    rw [List.isEmpty_iff.mp hs, List.dropWhile_cons_of_pos h]
    rfl
  · exact trimEnd_concat h _

/-- A carriage return at the end of a line is blank. -/
theorem trim_withoutReturn (l : List Char) : trim (withoutReturn l) = trim l := by
  rcases withoutReturn_cases l with h | h
  · rw [h]
  · have ht := trim_concat (by decide : isBlank '\r' = true) (withoutReturn l)
    rw [← h] at ht
    exact ht.symm

theorem trim_eq_nil_iff {s : List Char} : trim s = [] ↔ s.all isBlank = true := by
  rw [List.all_eq_true]
  constructor
  · intro h
    rw [trim, trimEnd, List.reverse_eq_nil_iff, List.dropWhile_eq_nil_iff] at h
    cases hd : s.dropWhile isBlank with
    | nil => exact List.dropWhile_eq_nil_iff.mp hd
    | cons c t =>
      have hc : isBlank c = true := h c (by simp [hd])
      have hn := List.head_dropWhile_not isBlank (by simp [hd] : s.dropWhile isBlank ≠ [])
      simp only [hd, List.head_cons] at hn
      rw [hc] at hn
      cases hn
  · intro h
    rw [trim, List.dropWhile_eq_nil_iff.mpr h]
    rfl

/-! ## 4. The first visible line -/

theorem takeWhile_feed {l : List Char} (h : '\n' ∉ l) (s : List Char) :
    (l ++ '\n' :: s).takeWhile (· ≠ '\n') = l := by
  rw [List.takeWhile_append_of_pos]
  · simp
  · intro c hc
    exact decide_eq_true fun he => h (he ▸ hc)

theorem not_mem_dropWhile {c : Char} {s : List Char} (h : c ∉ s) (p : Char → Bool) :
    c ∉ s.dropWhile p := fun hc => h ((List.dropWhile_suffix p).subset hc)

theorem stretch_of_not_mem {s : List Char} (h : '\n' ∉ s) : stretch s = trim s := by
  rw [stretch, List.takeWhile_eq_self_iff.mpr]
  · rfl
  · intro c hc
    exact decide_eq_true fun he => not_mem_dropWhile h isBlank (he ▸ hc)

/-- A blank line is passed over; of any other line, the blanks at its ends. -/
theorem stretch_feed {l : List Char} (h : '\n' ∉ l) (s : List Char) :
    stretch (l ++ '\n' :: s) = if l.all isBlank then stretch s else trim l := by
  split
  · next hb =>
    rw [stretch, stretch, List.dropWhile_append_of_pos (List.all_eq_true.mp hb),
      List.dropWhile_cons_of_pos (by decide)]
  · next hb =>
    have hne : (l.dropWhile isBlank).isEmpty = false := by
      rw [Bool.eq_false_iff]
      intro he
      refine hb (trim_eq_nil_iff.mp ?_)
      rw [trim, List.isEmpty_iff.mp he]
      rfl
    rw [stretch, List.dropWhile_append, hne, if_neg Bool.false_ne_true,
      takeWhile_feed (not_mem_dropWhile h isBlank)]
    rfl

theorem isEmpty_trim (s : List Char) : (trim s).isEmpty = s.all isBlank := by
  rw [Bool.eq_iff_iff, List.isEmpty_iff, trim_eq_nil_iff]

theorem firstVisible_of_not_mem {s : List Char} (h : '\n' ∉ s) :
    firstVisible s = if s.all isBlank then none else some (trim s) := by
  rw [firstVisible, lines_of_not_mem h, ← isEmpty_trim]
  by_cases hs : s = []
  · subst hs
    rfl
  · rw [if_neg hs, List.map_singleton, List.find?_cons]
    cases (trim s).isEmpty <;> rfl

theorem firstVisible_feed {l : List Char} (h : '\n' ∉ l) (s : List Char) :
    firstVisible (l ++ '\n' :: s) = if l.all isBlank then firstVisible s else some (trim l) := by
  rw [firstVisible, lines_feed h, List.map_cons, trim_withoutReturn, List.find?_cons,
    ← isEmpty_trim]
  cases (trim l).isEmpty <;> rfl

/-- The first visible line can be read off in one pass. -/
theorem firstVisible_eq (s : List Char) :
    firstVisible s = if s.all isBlank then none else some (stretch s) := by
  induction hn : s.length using Nat.strongRecOn generalizing s with
  | _ n ih =>
    by_cases hm : '\n' ∈ s
    · obtain ⟨l, t, rfl, hl⟩ := List.eq_append_cons_of_mem hm
      have hall : (l ++ '\n' :: t).all isBlank = (l.all isBlank && t.all isBlank) := by
        rw [List.all_append, List.all_cons]
        rfl
      rw [firstVisible_feed hl, stretch_feed hl, hall, ih t.length (by simp at hn; omega) t rfl]
      cases l.all isBlank <;> rfl
    · rw [firstVisible_of_not_mem hm, stretch_of_not_mem hm]

end MarkupLint.Text
