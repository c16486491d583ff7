import MarkupLint.Cli.Run
import MarkupLint.Proofs.Settings
import MarkupLint.Proofs.Writing

/-!
# Initialisation

Calls that write a default configuration are made one after the other, in any folders. Each of them
looks whether something is there, then whether it is a file, and only then whether it may be
replaced, so that nothing is lost unless `force` is given. A file that was written once holds the
default from then on, whatever calls come after.

Results:
1. `InitCall.runs`: what a call can do, and `init_eq_run`: the command is one call.
2. `Runs.unchanged_or_write`, `Runs.answer_eq_iff`, `Runs.safe`: one call.
3. `Runs.keeps`, `holds_of_mem_initSteps`, `pairwise_initSteps`: one call, and then all of them,
   keep a default that was written.
4. `initSteps_safe`: any sequence of calls.
-/

namespace MarkupLint.Config

open Files

/-! ## Definitions -/

def defaultBytes : List UInt8 := Text.utf8 defaultText.toList

/-- A call that writes the default into a folder. -/
structure InitCall where
  folder : Path
  force : Bool

def InitCall.path (call : InitCall) : Path := call.folder.join (Text.utf8 fileName.toList)

/-- What a call answers, and the tree as it is left. -/
def InitCall.run (call : InitCall) (t : FileTree) : Except InitError InitOutcome × FileTree :=
  writeDefault t call.folder call.force

/-- A call that was made, between the tree before and the tree after it. -/
structure InitStep where
  before : FileTree
  call : InitCall
  answer : Except InitError InitOutcome
  after : FileTree

/-- Calls are made one after the other. -/
def initSteps (t : FileTree) : List InitCall → List InitStep
  | [] => []
  | call :: calls => ⟨t, call, (call.run t).1, (call.run t).2⟩ :: initSteps (call.run t).2 calls

namespace InitStep

/-- The call has written the file. -/
def Wrote (step : InitStep) : Prop :=
  step.answer = .ok .created ∨ step.answer = .ok .overwritten

/-- What a call keeps, and when it answers what. -/
structure Safe (step : InitStep) : Prop where
  /-- Without `force` all that is there stays as it is. -/
  unforced : step.call.force = false → ∀ names e,
    step.before.entryAt? names = some e → step.after.entryAt? names = some e
  /-- Nothing that is there changes unless the answer says so. -/
  kept : step.answer ≠ .ok .overwritten → ∀ names e,
    step.before.entryAt? names = some e → step.after.entryAt? names = some e
  /-- An error is answered if the write fails or is not tried, and nothing has changed then. -/
  failed : ∀ e, step.answer = .error e → step.after = step.before ∧
    (e = .notAFile step.call.path ∧ step.before.contains step.call.path = true ∧
        step.before.hasFile step.call.path = false ∨
      ∃ cause, e = .io cause ∧ step.before.contains step.call.path = false ∧
        (step.before.write step.call.path defaultBytes).1 = .error cause)
  /-- Only the file of the call can change. -/
  elsewhere : ∀ names, step.after.place? step.call.path ≠ some names →
    step.after.entryAt? names = step.before.entryAt? names
  /-- Paths lead where they led. -/
  leads : ∀ p names, step.before.place? p = some names → step.after.place? p = some names
  created_iff : step.answer = .ok .created ↔
    step.before.contains step.call.path = false ∧
      (step.before.write step.call.path defaultBytes).1 = .ok ()
  /-- Where there is nothing, the file can be written if and only if the folder is there. -/
  writes_iff : step.before.contains step.call.path = false →
    ((step.before.write step.call.path defaultBytes).1 = .ok () ↔
      step.before.FolderAt step.call.folder)
  overwritten_iff : step.answer = .ok .overwritten ↔
    step.call.force = true ∧ step.before.hasFile step.call.path = true
  skipped_iff : step.answer = .ok .skipped ↔
    step.call.force = false ∧ step.before.hasFile step.call.path = true
  /-- A file that was written holds the default, and can be loaded. -/
  holds : step.Wrote → step.after.read step.call.path = .ok defaultBytes ∧
    ∃ c, parse defaultText.toList = .ok c ∧ load step.after step.call.path = .ok c

/-- The file of the first call holds the default after the later call too, and a later call for this
file goes by `force` alone. -/
structure Settles (step later : InitStep) : Prop where
  place : later.after.place? step.call.path = step.after.place? step.call.path
  text : later.after.read step.call.path = .ok defaultBytes
  answer : later.before.place? later.call.path = later.before.place? step.call.path →
    later.answer = .ok (if later.call.force then .overwritten else .skipped)

end InitStep

/-- The path leads to the place, and the default is there. -/
structure HoldsDefault (t : FileTree) (p : Path) (names : List Name) : Prop where
  place : t.place? p = some names
  entry : t.entryAt? names = some (.file defaultBytes)

/-- What a call can do: the answer, and the tree as it is left. -/
inductive InitCall.Runs (call : InitCall) (t : FileTree) :
    Except InitError InitOutcome → FileTree → Prop
  | created {t' : FileTree} : t.contains call.path = false →
      t.write call.path defaultBytes = (.ok (), t') → Runs call t (.ok .created) t'
  | unwritten {e : FileError} {t' : FileTree} : t.contains call.path = false →
      t.write call.path defaultBytes = (.error e, t') → Runs call t (.error (.io e)) t'
  | notAFile : t.contains call.path = true → t.hasFile call.path = false →
      Runs call t (.error (.notAFile call.path)) t
  | overwritten {t' : FileTree} : t.hasFile call.path = true → call.force = true →
      t.write call.path defaultBytes = (.ok (), t') → Runs call t (.ok .overwritten) t'
  | skipped : t.hasFile call.path = true → call.force = false → Runs call t (.ok .skipped) t

variable {t t' : FileTree} {call : InitCall} {answer : Except InitError InitOutcome}

theorem load_of_read {p : Path} {text : List Char} (h : t.read p = .ok (Text.utf8 text)) :
    load t p = parse text := by
  have hd : Text.ofUtf8? (Text.utf8 text) = some text := Text.ofUtf8?_eq_some_iff.mpr rfl
  rw [load, FileTree.readText, h]
  simp only [hd]

namespace HoldsDefault

variable {p : Path} {names : List Name}

theorem read (h : HoldsDefault t p names) : t.read p = .ok defaultBytes :=
  FileTree.read_eq_ok_iff.mpr ⟨names, h.place, h.entry⟩

theorem load (h : HoldsDefault t p names) : load t p = parse defaultText.toList :=
  load_of_read h.read

/-- Whatever path leads to the place of the default leads to a file. -/
theorem hasFile (h : HoldsDefault t p names) {q : Path} (hq : t.place? q = some names) :
    t.hasFile q = true :=
  FileTree.hasFile_iff.mpr ⟨_, FileTree.read_eq_ok_iff.mpr ⟨names, hq, h.entry⟩⟩

end HoldsDefault

/-! ## 1. What a call can do -/

theorem InitCall.run_eq (call : InitCall) (t : FileTree) : call.run t =
    let write (outcome : InitOutcome) : Except InitError InitOutcome × FileTree :=
      match t.write call.path defaultBytes with
      | (.ok (), t) => (.ok outcome, t)
      | (.error e, t) => (.error (.io e), t)
    if !t.contains call.path then write .created
    else if !t.hasFile call.path then (.error (.notAFile call.path), t)
    else if call.force then write .overwritten
    else (.ok .skipped, t) := rfl

theorem InitCall.runs (call : InitCall) (t : FileTree) :
    call.Runs t (call.run t).1 (call.run t).2 := by
  rw [run_eq]
  cases hc : t.contains call.path with
  | false =>
    rcases hw : t.write call.path defaultBytes with ⟨e | _, t'⟩
    · exact .unwritten hc hw
    · exact .created hc hw
  | true =>
    cases hfile : t.hasFile call.path with
    | false => exact .notAFile hc hfile
    | true =>
      cases hforce : call.force with
      | false => exact .skipped hfile hforce
      | true =>
        have hok := FileTree.write_ok_of_hasFile hfile defaultBytes
        have hw : t.write call.path defaultBytes = (.ok (), (t.write call.path defaultBytes).2) :=
          Prod.ext hok rfl
        rw [hw]
        exact .overwritten hfile hforce hw

/-- The command is one call for the working folder. -/
theorem init_eq_run (t : FileTree) (force : Bool) :
    (Cli.init t force).tree = (InitCall.run ⟨Cli.workingFolder, force⟩ t).2 ∧
      ((Cli.init t force).status = .failure ↔
        ∃ e, (InitCall.run ⟨Cli.workingFolder, force⟩ t).1 = .error e) := by
  unfold Cli.init InitCall.run
  rcases writeDefault t Cli.workingFolder force with ⟨e | outcome, t'⟩
  · exact ⟨rfl, iff_of_true rfl ⟨e, rfl⟩⟩
  · cases outcome <;> simp

namespace InitCall.Runs

/-! ## 2. One call -/

theorem contains_of_hasFile {p : Path} (h : t.hasFile p = true) : t.contains p = true := by
  obtain ⟨content, hr⟩ := FileTree.hasFile_iff.mp h
  obtain ⟨names, hp, -⟩ := FileTree.read_eq_ok_iff.mp hr
  exact FileTree.contains_iff.mpr ⟨names, hp⟩

theorem hasFile_eq_false {p : Path} (h : t.contains p = false) : t.hasFile p = false := by
  by_contra hfile
  rw [contains_of_hasFile ((Bool.not_eq_false _).mp hfile)] at h
  cases h

/-- A call leaves the tree as it is, or has written the file. -/
theorem unchanged_or_write (h : call.Runs t answer t') :
    t' = t ∨ t.write call.path defaultBytes = (.ok (), t') := by
  cases h with
  | created _ hw => exact .inr hw
  | unwritten _ hw => exact .inl (FileTree.eq_of_write_error hw)
  | notAFile => exact .inl rfl
  | overwritten _ _ hw => exact .inr hw
  | skipped => exact .inl rfl

theorem keepsKinds (h : call.Runs t answer t') : t.KeepsKinds t' := by
  rcases h.unchanged_or_write with rfl | hw
  · exact .refl _
  · exact FileTree.keepsKinds_of_write hw

theorem kept (h : call.Runs t answer t') (ha : answer ≠ .ok .overwritten) {names : List Name}
    {e : Entry} (he : t.entryAt? names = some e) : t'.entryAt? names = some e := by
  cases h with
  | created hc hw =>
    obtain ⟨place, -, hput, -, hnone⟩ := FileTree.write_changes hw
    rw [hput, Function.update_of_ne, he]
    rintro rfl
    rw [hnone (FileTree.contains_eq_false_iff.mp hc)] at he
    cases he
  | unwritten _ hw => rwa [FileTree.eq_of_write_error hw]
  | notAFile => exact he
  | overwritten => exact absurd rfl ha
  | skipped => exact he

theorem elsewhere (h : call.Runs t answer t') {names : List Name}
    (hn : t'.place? call.path ≠ some names) : t'.entryAt? names = t.entryAt? names := by
  rcases h.unchanged_or_write with rfl | hw
  · rfl
  · obtain ⟨place, hp, hput, -⟩ := FileTree.write_changes hw
    rw [hput, Function.update_of_ne]
    rintro rfl
    exact hn hp

theorem created_iff (h : call.Runs t answer t') : answer = .ok .created ↔
    t.contains call.path = false ∧ (t.write call.path defaultBytes).1 = .ok () := by
  cases h with
  | created hc hw => exact iff_of_true rfl ⟨hc, by rw [hw]⟩
  | unwritten hc hw => simp [hw]
  | notAFile hc => simp [hc]
  | overwritten hfile => simp [contains_of_hasFile hfile]
  | skipped hfile => simp [contains_of_hasFile hfile]

/-- The answer for a file that is there goes by `force`, and nothing else is answered so. -/
theorem answer_eq_iff (h : call.Runs t answer t') (force : Bool) :
    answer = .ok (if force then .overwritten else .skipped) ↔
      call.force = force ∧ t.hasFile call.path = true := by
  cases h with
  | created hc => cases force <;> simp [hasFile_eq_false hc]
  | unwritten hc => simp [hasFile_eq_false hc]
  | notAFile _ hfile => simp [hfile]
  | overwritten hfile hforce => cases force <;> simp [hfile, hforce]
  | skipped hfile hforce => cases force <;> simp [hfile, hforce]

theorem write_of_wrote (h : call.Runs t answer t')
    (ha : answer = .ok .created ∨ answer = .ok .overwritten) :
    t.write call.path defaultBytes = (.ok (), t') := by
  cases h with
  | created _ hw => exact hw
  | unwritten => simp at ha
  | notAFile => simp at ha
  | overwritten _ _ hw => exact hw
  | skipped => simp at ha

/-- The default that was written is in its place. -/
theorem holds_of_wrote (h : call.Runs t answer t')
    (ha : answer = .ok .created ∨ answer = .ok .overwritten) :
    ∃ names, HoldsDefault t' call.path names := by
  obtain ⟨names, hp, hput, -⟩ := FileTree.write_changes (h.write_of_wrote ha)
  exact ⟨names, hp, by rw [hput, Function.update_self]⟩

theorem overwritten_iff (h : call.Runs t answer t') : answer = .ok .overwritten ↔
    call.force = true ∧ t.hasFile call.path = true := by
  simpa using h.answer_eq_iff true

theorem safe (h : call.Runs t answer t') : InitStep.Safe ⟨t, call, answer, t'⟩ where
  unforced hf _ _ he := by
    refine h.kept (fun ha => ?_) he
    rw [(h.overwritten_iff.mp ha).1] at hf
    cases hf
  kept ha _ _ he := h.kept ha he
  failed e ha := by
    cases h with
    | created => cases ha
    | @unwritten cause _ hc hw =>
      obtain rfl := Except.error.inj ha
      exact ⟨FileTree.eq_of_write_error hw, .inr ⟨cause, rfl, hc, by rw [hw]⟩⟩
    | notAFile hc hfile =>
      obtain rfl := Except.error.inj ha
      exact ⟨rfl, .inl ⟨rfl, hc, hfile⟩⟩
    | overwritten => cases ha
    | skipped => cases ha
  elsewhere _ hn := h.elsewhere hn
  leads _ _ hp := h.keepsKinds.place? hp
  created_iff := h.created_iff
  writes_iff hc :=
    FileTree.write_join_ok_iff (by decide) (FileTree.contains_eq_false_iff.mp hc) _
  overwritten_iff := h.overwritten_iff
  skipped_iff := by simpa using h.answer_eq_iff false
  holds ha := by
    obtain ⟨names, hd⟩ := h.holds_of_wrote ha
    obtain ⟨c, hc⟩ := Cli.exists_parse_defaultText
    exact ⟨hd.read, c, hc, hd.load.trans hc⟩

/-! ## 3. Later calls -/

/-- A call keeps a default that is there, in whatever place. -/
theorem keeps (h : call.Runs t answer t') {p : Path} {names : List Name}
    (hd : HoldsDefault t p names) : HoldsDefault t' p names := by
  refine ⟨h.keepsKinds.place? hd.place, ?_⟩
  rcases h.unchanged_or_write with rfl | hw
  · exact hd.entry
  · obtain ⟨place, -, hput, -⟩ := FileTree.write_changes hw
    by_cases hn : names = place
    · rw [hput, hn, Function.update_self]
    · rw [hput, Function.update_of_ne hn, hd.entry]

end InitCall.Runs

variable {calls : List InitCall} {step : InitStep}

/-- Each call of a sequence does what a call can do. -/
theorem runs_of_mem_initSteps (h : step ∈ initSteps t calls) :
    step.call.Runs step.before step.answer step.after := by
  induction calls generalizing t with
  | nil => cases h
  | cons call calls ih =>
    rcases List.mem_cons.mp h with rfl | h
    · exact call.runs t
    · exact ih h

/-- A default that is there before a sequence of calls is there all along. -/
theorem holds_of_mem_initSteps {p : Path} {names : List Name} (hd : HoldsDefault t p names)
    (h : step ∈ initSteps t calls) :
    HoldsDefault step.before p names ∧ HoldsDefault step.after p names := by
  induction calls generalizing t with
  | nil => cases h
  | cons call calls ih =>
    have hafter := (call.runs t).keeps hd
    rcases List.mem_cons.mp h with rfl | h
    · exact ⟨hd, hafter⟩
    · exact ih hafter h

/-- What comes after a call that has written the file. -/
theorem settles_of_mem_initSteps {first : InitStep}
    (hfirst : first.call.Runs first.before first.answer first.after) (hw : first.Wrote)
    (h : step ∈ initSteps first.after calls) : first.Settles step := by
  obtain ⟨names, hd⟩ := hfirst.holds_of_wrote hw
  obtain ⟨hbefore, hafter⟩ := holds_of_mem_initSteps hd h
  refine ⟨hafter.place.trans hd.place.symm, hafter.read, fun hp => ?_⟩
  have hfile := hbefore.hasFile (hp.trans hbefore.place)
  exact ((runs_of_mem_initSteps h).answer_eq_iff _).mpr ⟨rfl, hfile⟩

theorem pairwise_initSteps (t : FileTree) (calls : List InitCall) :
    (initSteps t calls).Pairwise fun step later => step.Wrote → step.Settles later := by
  induction calls generalizing t with
  | nil => exact .nil
  | cons call calls ih =>
    rw [initSteps, List.pairwise_cons]
    exact ⟨fun later h hw => settles_of_mem_initSteps (call.runs t) hw h, ih _⟩

/-! ## 4. Any sequence of calls -/

/-- Calls do not destroy anything: each of them is safe, and once a call has written the file, all
later ones leave the default there and go, for this file, by `force` alone. The folders of the calls
are meant relative to the working folder and not to lead above it; one that leads outside is not
there in any tree, so that the call answers with an error. -/
theorem initSteps_safe (t : FileTree) (calls : List InitCall) :
    (∀ step ∈ initSteps t calls, step.Safe) ∧
      (initSteps t calls).Pairwise fun step later => step.Wrote → step.Settles later :=
  ⟨fun _ h => (runs_of_mem_initSteps h).safe, pairwise_initSteps t calls⟩

/-- A folder with a configuration that was changed, one with another folder in its place, and one
without either. -/
def changedTree : FileTree :=
  { entries := [(Text.utf8 "changed".toList, .folder
        [(Text.utf8 fileName.toList, .file (Text.utf8 "[rules]".toList))]),
      (Text.utf8 "odd".toList, .folder [(Text.utf8 fileName.toList, .folder [])]),
      (Text.utf8 "new".toList, .folder [])] }

/-- The configuration that was changed is replaced by `force` only, and then it is the default that
is found, under whatever spelling. -/
theorem initSteps_safe_changed :
    let calls : List InitCall :=
      [⟨.ofString "changed", false⟩, ⟨.ofString "odd", true⟩, ⟨.ofString "new", true⟩,
        ⟨.ofString "changed", true⟩, ⟨.ofString "new/../changed/.", false⟩]
    let steps := initSteps changedTree calls
    steps.map (·.answer) =
        [.ok .skipped, .error (.notAFile (.ofString "odd/marklint.toml")), .ok .created,
          .ok .overwritten, .ok .skipped] ∧
      (∀ step ∈ steps, step.Safe) ∧
      steps.Pairwise fun step later => step.Wrote → step.Settles later :=
  ⟨by decide +kernel, initSteps_safe _ _⟩

end MarkupLint.Config
