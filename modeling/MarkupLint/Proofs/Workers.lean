import Mathlib
import MarkupLint.Execution
import MarkupLint.Proofs.Decoding

/-!
# Files checked by several workers

Each file has a slot of its own. A worker takes any file that nobody has finished, reads it, checks
it and fills its slot; the report is put together when all slots are filled. Which worker takes
which file, and in which order they finish, cannot be seen in the report: it is the one on the
files in order, each checked on its own.

Results:
1. `textOf?_eq_some_iff`, `textOf?_eq_none_iff`: which files are readable.
2. `files_execute`, `findings_execute`, `unreadable_execute`, `execute_append`: the report, file by
   file.
3. `Fills.sound`, `Fills.length`, `Fills.collected`, `exists_fill`: what the workers leave in the
   slots, and that they are never stuck.
4. `execute_per_file`: all of it.
-/

namespace MarkupLint

open Files Lint Report

/-! ## Definitions -/

/-- The text of a file, if it can be read. -/
def Files.textOf? (t : FileTree) (p : Path) : Option (List Char) := (t.readText p).toOption

/-- The ways in which a path has no text. -/
inductive Files.Unreadable (t : FileTree) (p : Path) : Prop
  | missing (e : FileError) : t.spot p = .error e → Unreadable t p
  | notAFile (s : Spot) (entries : Folder) :
      t.spot p = .ok s → s.node = .folder entries → Unreadable t p
  | notText (s : Spot) (content : List UInt8) : t.spot p = .ok s → s.node = .file content →
      (∀ text, content ≠ Text.utf8 text) → Unreadable t p

/-- What is found in a file, if it can be read. -/
def fileFindings? (t : FileTree) (l : Linter) (p : Path) : Option FileFindings :=
  (textOf? t p).map fun text => ⟨p, l.lint text⟩

/-- The slots for the outcomes of files, one for each file; a slot is empty until a worker has
finished with the file. -/
abbrev Slots := List (Option FileOutcome)

def Slots.empty (files : List Path) : Slots := files.map fun _ => none

/-- Some worker finishes with a file that nobody has finished before. -/
inductive Fill (t : FileTree) (l : Linter) (files : List Path) : Slots → Slots → Prop
  | finish (slots : Slots) (i : Nat) (p : Path) : files[i]? = some p → slots[i]? = some none →
      Fill t l files slots (slots.set i (some (.ofFile t l p)))

/-- Workers have filled slots, in some order. -/
inductive Fills (t : FileTree) (l : Linter) (files : List Path) : Slots → Prop
  | start : Fills t l files (.empty files)
  | step {slots slots' : Slots} :
      Fills t l files slots → Fill t l files slots slots' → Fills t l files slots'

variable {t : FileTree} {l : Linter}

/-! ## 1. Readable files -/

theorem Files.textOf?_eq_some_iff {p : Path} {text : List Char} :
    textOf? t p = some text ↔ ∃ s, t.spot p = .ok s ∧ s.node = .file (Text.utf8 text) := by
  unfold textOf? FileTree.readText FileTree.read
  cases hs : t.spot p with
  | error e => simp [Except.toOption]
  | ok s =>
    cases hn : s.node with
    | folder entries => simp [Except.toOption, hn]
    | file content =>
      have hd := Text.ofUtf8?_eq_some_iff (s := content) (t := text)
      cases hc : Text.ofUtf8? content with
      | none =>
        rw [hc] at hd
        simpa [Except.toOption, hn, hc] using hd
      | some u =>
        rw [hc] at hd
        simpa [Except.toOption, hn, hc] using hd

theorem Files.textOf?_eq_none_iff {p : Path} : textOf? t p = none ↔ Unreadable t p := by
  rw [Option.eq_none_iff_forall_not_mem]
  constructor
  · intro h
    cases hs : t.spot p with
    | error e => exact .missing e hs
    | ok s =>
      cases hn : s.node with
      | folder entries => exact .notAFile s entries hs hn
      | file content =>
        refine .notText s content hs hn ?_
        rintro text rfl
        exact h text (textOf?_eq_some_iff.mpr ⟨s, hs, hn⟩)
  · intro h text ht
    obtain ⟨s, hs, hn⟩ := textOf?_eq_some_iff.mp ht
    cases h with
    | missing e he =>
      rw [hs] at he
      cases he
    | notAFile s' entries hs' hn' =>
      obtain rfl : s = s' := Except.ok.inj (hs.symm.trans hs')
      rw [hn] at hn'
      cases hn'
    | notText s' content hs' hn' hu =>
      obtain rfl : s = s' := Except.ok.inj (hs.symm.trans hs')
      exact hu text (Node.file.inj (hn'.symm.trans hn))

/-! ## 2. The report, file by file -/

theorem findings?_ofFile (p : Path) :
    (FileOutcome.ofFile t l p).findings? = fileFindings? t l p := by
  unfold FileOutcome.ofFile fileFindings? textOf?
  cases t.readText p with
  | ok text => rfl
  | error e => rfl

theorem isUnreadable_ofFile (p : Path) :
    (FileOutcome.ofFile t l p).isUnreadable = (textOf? t p).isNone := by
  unfold FileOutcome.ofFile textOf?
  cases t.readText p with
  | ok text => rfl
  | error e => rfl

theorem files_execute (files : List Path) :
    (execute t l files).files = files.filterMap (fileFindings? t l) := by
  have hf : (fun o : FileOutcome => o.findings?) ∘ FileOutcome.ofFile t l = fileFindings? t l :=
    funext findings?_ofFile
  rw [execute, outcomes, reportOf, List.filterMap_map, hf]

theorem checked_execute (files : List Path) :
    (execute t l files).checked = (execute t l files).files.length := rfl

theorem unreadable_execute (files : List Path) :
    (execute t l files).unreadable = files.countP fun p => (textOf? t p).isNone := by
  have hf : (fun o : FileOutcome => o.isUnreadable) ∘ FileOutcome.ofFile t l =
      fun p => (textOf? t p).isNone := funext isUnreadable_ofFile
  rw [execute, outcomes, reportOf, ← List.countP_eq_length_filter, List.countP_map, hf]

theorem paths_execute (files : List Path) :
    (execute t l files).files.map (·.path) = files.filter fun p => (textOf? t p).isSome := by
  rw [files_execute]
  induction files with
  | nil => rfl
  | cons p ps ih =>
    cases hp : textOf? t p with
    | none => simp [fileFindings?, hp, ih]
    | some text => simp [fileFindings?, hp, ih]

theorem checked_add_unreadable (files : List Path) :
    (execute t l files).checked + (execute t l files).unreadable = files.length := by
  have hp := congrArg List.length (paths_execute (t := t) (l := l) files)
  rw [List.length_map, ← List.countP_eq_length_filter] at hp
  rw [checked_execute, unreadable_execute, hp,
    List.length_eq_countP_add_countP fun p => (textOf? t p).isSome]
  congr 2
  funext p
  cases textOf? t p <;> rfl

theorem findings_execute (files : List Path) :
    (execute t l files).findings = files.flatMap fun p =>
      ((textOf? t p).map l.lint).getD [] |>.map fun d => (p, d) := by
  rw [Report.findings, files_execute]
  induction files with
  | nil => rfl
  | cons p ps ih =>
    cases hp : textOf? t p with
    | none => simp [fileFindings?, hp, ih]
    | some text => simp [fileFindings?, hp, ih]

theorem total_execute (files : List Path) :
    (execute t l files).total = ((execute t l files).files.map (·.findings.length)).sum := by
  simp [Report.total, Report.findings, List.length_flatMap]

/-- The report on files and more files. -/
theorem execute_append (xs ys : List Path) :
    (execute t l (xs ++ ys)).files = (execute t l xs).files ++ (execute t l ys).files ∧
    (execute t l (xs ++ ys)).checked = (execute t l xs).checked + (execute t l ys).checked ∧
    (execute t l (xs ++ ys)).unreadable =
      (execute t l xs).unreadable + (execute t l ys).unreadable ∧
    (execute t l (xs ++ ys)).total = (execute t l xs).total + (execute t l ys).total := by
  have hf : (execute t l (xs ++ ys)).files = (execute t l xs).files ++ (execute t l ys).files := by
    rw [files_execute, files_execute, files_execute, List.filterMap_append]
  refine ⟨hf, ?_, ?_, ?_⟩
  · rw [checked_execute, hf, List.length_append, checked_execute, checked_execute]
  · rw [unreadable_execute, unreadable_execute, unreadable_execute, List.countP_append]
  · rw [total_execute, total_execute, total_execute, hf, List.map_append, List.sum_append]

/-! ## 3. The workers -/

namespace Fills

variable {files : List Path} {slots : Slots}

theorem length (h : Fills t l files slots) : slots.length = files.length := by
  induction h with
  | start => exact List.length_map _
  | step _ hfill ih =>
    cases hfill with
    | finish i p hp hi => rw [List.length_set, ih]

/-- A filled slot holds the outcome of its own file. -/
theorem sound (h : Fills t l files slots) {i : Nat} {o : FileOutcome}
    (hi : slots[i]? = some (some o)) : ∃ p, files[i]? = some p ∧ o = .ofFile t l p := by
  induction h generalizing o with
  | start =>
    obtain ⟨p, -, hn⟩ := Option.map_eq_some_iff.mp ((List.getElem?_map).symm.trans hi)
    cases hn
  | step _ hfill ih =>
    cases hfill with
    | finish j p hp hj =>
      rw [List.getElem?_set] at hi
      split at hi
      · next hij =>
        subst hij
        split at hi
        · obtain rfl := Option.some.inj (Option.some.inj hi)
          exact ⟨p, hp, rfl⟩
        · cases hi
      · exact ih hi

/-- When all slots are filled, they hold the outcomes of the files in order. -/
theorem collected (h : Fills t l files slots) {os : List FileOutcome} (ho : slots = os.map some) :
    os = outcomes t l files := by
  have hlen := h.length
  rw [ho, List.length_map] at hlen
  refine List.ext_getElem? fun i => ?_
  rw [outcomes, List.getElem?_map]
  cases hi : os[i]? with
  | none =>
    rw [List.getElem?_eq_none_iff, hlen] at hi
    rw [List.getElem?_eq_none hi]
    rfl
  | some o =>
    obtain ⟨p, hp, rfl⟩ := h.sound (i := i) (o := o) (by rw [ho, List.getElem?_map, hi]; rfl)
    rw [hp]
    rfl

end Fills

/-- As long as a slot is empty, some worker can go on. -/
theorem exists_fill {files : List Path} {slots : Slots} (h : Fills t l files slots)
    (he : none ∈ slots) : ∃ slots', Fill t l files slots slots' := by
  obtain ⟨i, hi⟩ := List.mem_iff_getElem?.mp he
  obtain ⟨hlt, -⟩ := List.getElem?_eq_some_iff.mp hi
  rw [h.length] at hlt
  exact ⟨_, .finish slots i files[i] (List.getElem?_eq_getElem hlt) hi⟩

/-! ## 4. All of it -/

/-- The report on files is put together file by file. -/
structure ChecksEachFile (t : FileTree) (l : Linter) : Prop where
  /-- The report on two lists of files joins the reports on each. -/
  append : ∀ xs ys,
    (execute t l (xs ++ ys)).files = (execute t l xs).files ++ (execute t l ys).files ∧
    (execute t l (xs ++ ys)).checked = (execute t l xs).checked + (execute t l ys).checked ∧
    (execute t l (xs ++ ys)).unreadable =
      (execute t l xs).unreadable + (execute t l ys).unreadable ∧
    (execute t l (xs ++ ys)).total = (execute t l xs).total + (execute t l ys).total
  /-- Each file that is given is counted once. -/
  counted : ∀ xs, (execute t l xs).checked + (execute t l xs).unreadable = xs.length
  /-- The paths are those that are given, in order, without the ones that have no text. -/
  paths : ∀ xs, (execute t l xs).files.map (·.path) = xs.filter fun p => (textOf? t p).isSome
  /-- A path has no text if nothing is there, or no file, or bytes that are not UTF-8. -/
  unreadable : ∀ p, textOf? t p = none ↔ Unreadable t p
  /-- The text of a path is the one that its file holds in UTF-8. -/
  text : ∀ p text, textOf? t p = some text ↔
    ∃ s, t.spot p = .ok s ∧ s.node = .file (Text.utf8 text)
  /-- What is found in a file is what the linter finds in its text, whatever the other files. -/
  own : ∀ xs, ∀ f ∈ (execute t l xs).files,
    ∃ text, textOf? t f.path = some text ∧ f.findings = l.lint text
  /-- The findings are those in the files with a text, in the order of the files. -/
  findings : ∀ xs, (execute t l xs).findings = xs.flatMap fun p =>
    ((textOf? t p).map l.lint).getD [] |>.map fun d => (p, d)
  /-- The total counts the findings, which is to count them file by file. -/
  total : ∀ xs, (execute t l xs).total = (execute t l xs).findings.length ∧
    (execute t l xs).total = ((execute t l xs).files.map (·.findings.length)).sum
  /-- Workers that finish in any order leave the same report. -/
  unordered : ∀ xs slots os, Fills t l xs slots → slots = os.map some →
    reportOf os = execute t l xs
  /-- Workers go on until all slots are filled. -/
  progress : ∀ xs slots, Fills t l xs slots → none ∈ slots → ∃ slots', Fill t l xs slots slots'

theorem own_of_mem_files {files : List Path} {f : FileFindings}
    (h : f ∈ (execute t l files).files) :
    ∃ text, textOf? t f.path = some text ∧ f.findings = l.lint text := by
  rw [files_execute] at h
  obtain ⟨p, -, hp⟩ := List.mem_filterMap.mp h
  obtain ⟨text, ht, rfl⟩ := Option.map_eq_some_iff.mp hp
  exact ⟨text, ht, rfl⟩

/-- Files are checked one by one. The report on a list of files is put together from what each file
gives on its own, in the order of the list, in whichever order the workers finish. -/
theorem execute_per_file (t : FileTree) (l : Linter) : ChecksEachFile t l where
  append := execute_append
  counted := checked_add_unreadable
  paths := paths_execute
  unreadable _ := textOf?_eq_none_iff
  text _ _ := textOf?_eq_some_iff
  own _ _ := own_of_mem_files
  findings := findings_execute
  total xs := ⟨rfl, total_execute xs⟩
  unordered xs slots os hf ho := by
    rw [hf.collected ho]
    rfl
  progress _ _ := exists_fill

/-- A file given twice, a folder, a file that is no text and one that is missing. -/
example :
    let t : FileTree :=
      { entries := [([0x61], .file [0x3C]), ([0x62], .file [0xFF]), ([0x63], .folder [])] }
    let r := execute t {} [.ofString "a", .ofString "c", .ofString "b", .ofString "d",
      .ofString "./a"]
    (r.files.map (·.path), r.checked, r.unreadable) =
      ([.ofString "a", .ofString "./a"], 2, 3) := by
  decide +kernel

end MarkupLint
