import Mathlib
import MarkupLint.Proofs.Identifiers
import MarkupLint.Proofs.Lines
import MarkupLint.Report.Human

/-!
# How many lines a report for people has

Each finding takes a line of its own, and one more if anything is to be seen in its evidence. After
the findings, if there are any, comes an empty line, then one or two lines that sum them up. The
only other line feeds are those that stand in the paths and the messages that are shown.

Results:
1. `excerpt_eq`, `not_mem_excerpt`, `length_excerpt`: what is shown of the evidence.
2. `count_render`: no style has a line feed.
3. `not_mem_decimal`, `not_mem_counted`, `not_mem_ruleId`, `not_mem_severity`: there are no control
   characters in what a report adds of its own.
4. `count_findingRuns`, `count_findings`, `count_summaryRuns`: the parts of a report.
5. `human_lines`: a report.
-/

namespace MarkupLint.Report

open Lint Text

/-! ## Definitions -/

/-- Something is to be seen in the evidence of the finding. -/
def isSeen (f : Path × Diagnostic) : Bool := f.2.evidence.any fun c => !isBlank c

def shownFeeds (f : Path × Diagnostic) : Nat :=
  f.1.shown.count '\n' + f.2.message.toList.count '\n'

/-! ## 1. Excerpts -/

/-- The excerpt is cut out in one pass. -/
theorem excerpt_eq (s : List Char) :
    excerpt s = if s.all isBlank then none else some (clip (stretch s)) := by
  rw [show excerpt s = (firstVisible s).map clip from rfl, firstVisible_eq]
  cases s.all isBlank <;> rfl

theorem excerpt_eq_none_iff {s : List Char} : excerpt s = none ↔ ∀ c ∈ s, isBlank c = true := by
  rw [excerpt_eq, ← List.all_eq_true]
  cases s.all isBlank <;> simp

theorem eq_clip_of_excerpt {s e : List Char} (h : excerpt s = some e) : e = clip (stretch s) := by
  rw [excerpt_eq] at h
  split at h
  · cases h
  · exact (Option.some.inj h).symm

theorem not_mem_stretch (s : List Char) : '\n' ∉ stretch s := by
  intro h
  have hm := (List.rdropWhile_prefix isBlank _).subset h
  simpa using List.mem_takeWhile_imp hm

theorem not_mem_excerpt {s e : List Char} (h : excerpt s = some e) : '\n' ∉ e := by
  have hs := not_mem_stretch s
  rw [eq_clip_of_excerpt h, clip]
  split
  · exact hs
  · intro hm
    rcases List.mem_append.mp hm with hm | hm
    · exact hs (List.mem_of_mem_take hm)
    · simp at hm

theorem length_excerpt {s e : List Char} (h : excerpt s = some e) : e.length ≤ 83 := by
  rw [eq_clip_of_excerpt h, clip]
  split
  · next hl => exact Nat.le_trans hl (by decide)
  · rw [List.length_append, List.length_take]
    exact Nat.add_le_add_right (Nat.min_le_left _ _) 3

/-! ## 2. Runs -/

theorem count_set (s : Style) : s.set.count '\n' = 0 := by
  obtain ⟨bold, dimmed, color⟩ := s
  rcases color with _ | _ | _ | _ | _ <;> cases bold <;> cases dimmed <;> rfl

/-- A style adds no line feed. -/
theorem count_render (colored : Bool) (run : Run) :
    (run.render colored).count '\n' = run.text.count '\n' := by
  rw [Run.render]
  split
  · rfl
  · next s hs =>
    split
    · rw [List.count_append, List.count_append, count_set]
      exact Nat.zero_add _
    · rfl

theorem count_renderAll (colored : Bool) (runs : List Run) :
    (Run.renderAll colored runs).count '\n' = (runs.map fun run => run.text.count '\n').sum := by
  rw [Run.renderAll, List.count_flatMap]
  congr 1
  exact List.map_congr_left fun run _ => count_render colored run

/-! ## 3. Control characters -/

section

variable {c : Char} (hc : c.toNat < 32)

include hc

theorem not_mem_decimal (n : Nat) : c ∉ decimal n := by
  intro h
  have hd : c.isDigit = true := Nat.isDigit_of_mem_toDigits (by decide) (by decide) h
  have h48 : 48 ≤ c.toNat := (Char.isDigit_iff_toNat.mp hd).1
  omega

theorem not_mem_counted (n : Nat) {one many : String} (h₁ : c ∉ one.toList)
    (h₂ : c ∉ many.toList) : c ∉ counted n one many := by
  have hspace : c ≠ ' ' := by
    rintro rfl
    exact absurd hc (by decide)
  have hname : c ∉ (if n = 1 then one else many).toList := by
    split
    · exact h₁
    · exact h₂
  simp [counted, not_mem_decimal hc, hspace, hname]

theorem not_mem_ruleId (id : RuleId) : c ∉ id.text.toList := by
  have hv := id.valid
  rw [isIdText, Bool.and_eq_true, List.all_eq_true] at hv
  intro h
  have h45 : 45 ≤ c.toNat := le_of_isIdChar (hv.2 c h)
  omega

theorem not_mem_severity (s : Severity) : c ∉ s.name.toList := by
  have hname : s.name.toList.all (32 ≤ ·.toNat) = true := by cases s <;> decide
  intro h
  have h32 : 32 ≤ c.toNat := of_decide_eq_true (List.all_eq_true.mp hname c h)
  omega

end

/-! ## 4. The parts of a report -/

theorem excerpt_isSome (s : List Char) : (excerpt s).isSome = s.any fun c => !isBlank c := by
  rw [excerpt_eq, ← List.not_all_eq_any_not]
  cases s.all isBlank <;> rfl

/-- The lines of a finding. -/
theorem count_findingRuns (colored : Bool) (f : Path × Diagnostic) :
    (Run.renderAll colored (findingRuns f.1 f.2)).count '\n' =
      1 + (if isSeen f then 1 else 0) + shownFeeds f := by
  have hn (n : Nat) : (decimal n).count '\n' = 0 :=
    List.count_eq_zero.mpr (not_mem_decimal (by decide) n)
  have hid : f.2.rule.id.text.toList.count '\n' = 0 :=
    List.count_eq_zero.mpr (not_mem_ruleId (by decide) _)
  have hs : f.2.severity.name.toList.count '\n' = 0 :=
    List.count_eq_zero.mpr (not_mem_severity (by decide) _)
  rw [count_renderAll, findingRuns, isSeen, ← excerpt_isSome, shownFeeds]
  cases he : excerpt f.2.evidence with
  | none =>
    simp [hn, hid, hs, Run.plain]
    omega
  | some e =>
    have hz : e.count '\n' = 0 := List.count_eq_zero.mpr (not_mem_excerpt he)
    simp [hn, hid, hs, Run.plain, hz]
    omega

theorem count_findings (colored : Bool) (fs : List (Path × Diagnostic)) :
    (Run.renderAll colored (fs.flatMap fun f => findingRuns f.1 f.2)).count '\n' =
      fs.length + fs.countP isSeen + (fs.map shownFeeds).sum := by
  induction fs with
  | nil => rfl
  | cons f fs ih =>
    rw [List.flatMap_cons, Run.renderAll_append, List.count_append, count_findingRuns, ih,
      List.length_cons, List.countP_cons, List.map_cons, List.sum_cons]
    omega

/-- The lines that sum up a report. -/
theorem count_summaryRuns (colored : Bool) (r : Report) :
    (Run.renderAll colored (summaryRuns r)).count '\n' =
      1 + if 0 < r.unreadable then 1 else 0 := by
  have hf (n : Nat) : (counted n "file" "files").count '\n' = 0 :=
    List.count_eq_zero.mpr (not_mem_counted (by decide) n (by decide) (by decide))
  have hd : (counted r.total "diagnostic" "diagnostics").count '\n' = 0 :=
    List.count_eq_zero.mpr (not_mem_counted (by decide) _ (by decide) (by decide))
  rw [count_renderAll, summaryRuns]
  rcases Nat.eq_zero_or_pos r.total with ht | ht <;>
    rcases Nat.eq_zero_or_pos r.unreadable with hu | hu <;>
    simp [ht, hu, Nat.ne_of_gt, hf, hd]

/-! ## 5. The report -/

/-- The lines of a report, and the excerpts in it. -/
theorem human_lines (r : Report) :
    (∀ colored, (human colored r).count '\n' =
      r.total + r.findings.countP isSeen + (if 0 < r.total then 1 else 0) + 1 +
        (if 0 < r.unreadable then 1 else 0) + (r.findings.map shownFeeds).sum) ∧
    ∀ s, (excerpt s = none ↔ ∀ c ∈ s, isBlank c = true) ∧
      ∀ e, excerpt s = some e →
        e = (if (stretch s).length ≤ 80 then stretch s
          else (stretch s).take 80 ++ "...".toList) ∧
        '\n' ∉ e ∧ e.length ≤ 83 := by
  refine ⟨fun colored => ?_, fun s => ⟨excerpt_eq_none_iff, fun e he =>
    ⟨eq_clip_of_excerpt he, not_mem_excerpt he, length_excerpt he⟩⟩⟩
  have hn : (Run.renderAll colored (if r.total = 0 then [] else [.plain "\n"])).count '\n' =
      if 0 < r.total then 1 else 0 := by
    rcases Nat.eq_zero_or_pos r.total with ht | ht
    · rw [ht]
      rfl
    · rw [if_neg (Nat.ne_of_gt ht), if_pos ht]
      rfl
  rw [human, humanRuns, Run.renderAll_append, Run.renderAll_append, List.count_append,
    List.count_append, count_findings, count_summaryRuns, hn, total]
  omega

/-- A file with a finding whose evidence is long and begins with an empty line; its path has a line
feed. Another file cannot be read. -/
def longReport : Report where
  files := [{
    path := .ofString "a\nb.html"
    findings := [{
      severity := .warning
      message := "too long"
      position := {}
      rule := { id := ⟨"long", by decide⟩, description := "" }
      evidence := ['\r', '\n', ' '] ++ List.replicate 81 'x' ++ ['\r', '\n', 'y'] }] }]
  checked := 1
  unreadable := 1

theorem human_lines_long :
    (human true longReport).count '\n' = 6 ∧
      ∃ e, excerpt (['\r', '\n', ' '] ++ List.replicate 81 'x' ++ ['\r', '\n', 'y']) = some e ∧
        e = List.replicate 80 'x' ++ ['.', '.', '.'] ∧ '\n' ∉ e := by
  obtain ⟨hc, hx⟩ := human_lines longReport
  have he : excerpt (['\r', '\n', ' '] ++ List.replicate 81 'x' ++ ['\r', '\n', 'y']) =
      some (List.replicate 80 'x' ++ ['.', '.', '.']) := by decide +kernel
  exact ⟨(hc true).trans (by decide +kernel), _, he, rfl, ((hx _).2 _ he).2.1⟩

end MarkupLint.Report
