import MarkupLint.Path

/-!
# File trees

A file tree holds the folders and files below the working folder. Paths are followed from there, so
they are meant relative to the working folder and not to lead above it: what lies outside is not
known, and a path that leads outside counts as missing in every tree.

A tree is proper: no folder holds two entries of one name, and each name is one that an entry can
have. Following a path stays within proper folders (`Spot.IsProper.follow`), so that a tree is
proper again after a file is written (`Site.put`).
-/

namespace MarkupLint.Files

abbrev Name := List UInt8

/-- A file or a folder. -/
inductive Node where
  | file (content : List UInt8)
  | folder (entries : List (Name × Node))

/-- The entries of a folder. -/
abbrev Folder := List (Name × Node)

/-- Why a file cannot be read or written. -/
inductive FileError where
  | missing
  | notAFolder
  | isAFolder
  | notText
deriving DecidableEq, Repr

def FileError.message : FileError → String
  | missing => "No such file or directory (os error 2)"
  | notAFolder => "Not a directory (os error 20)"
  | isAFolder => "Is a directory (os error 21)"
  | notText => "stream did not contain valid UTF-8"

def Node.isFolder : Node → Bool
  | .file _ => false
  | .folder _ => true

def Node.isFile : Node → Bool
  | .file _ => true
  | .folder _ => false

def child? (es : Folder) (name : Name) : Option Node := (es.find? (·.1 == name)).map (·.2)

/-- Puts a node under a name. -/
def setEntry (name : Name) (n : Node) : Folder → Folder
  | [] => [(name, n)]
  | e :: es => if e.1 = name then (name, n) :: es else e :: setEntry name n es

/-! ## Proper folders -/

mutual

/-- No folder holds two entries of one name, and all names are names. -/
def Node.isProper : Node → Bool
  | .file _ => true
  | .folder es => entriesAreProper es

/-- The entries have different names, and what they hold is proper. -/
def entriesAreProper : List (Name × Node) → Bool
  | [] => true
  | (name, n) :: es =>
    Path.isName name && !es.any (·.1 == name) && n.isProper && entriesAreProper es

end

theorem entriesAreProper_cons {name : Name} {n : Node} {es : Folder} :
    entriesAreProper ((name, n) :: es) = true ↔
      Path.isName name = true ∧ (∀ e ∈ es, e.1 ≠ name) ∧ n.isProper = true ∧
        entriesAreProper es = true := by
  rw [entriesAreProper]
  simp [and_assoc]

theorem proper_of_mem {es : Folder} (h : entriesAreProper es = true) {name : Name} {n : Node}
    (hm : (name, n) ∈ es) : Path.isName name = true ∧ n.isProper = true := by
  induction es with
  | nil => cases hm
  | cons e es ih =>
    obtain ⟨name', n'⟩ := e
    obtain ⟨h1, -, h3, h4⟩ := entriesAreProper_cons.mp h
    rcases List.mem_cons.mp hm with he | hm
    · obtain ⟨rfl, rfl⟩ := Prod.mk.inj he
      exact ⟨h1, h3⟩
    · exact ih h4 hm

theorem child?_eq_some_iff {es : Folder} (h : entriesAreProper es = true) {name : Name} {n : Node} :
    child? es name = some n ↔ (name, n) ∈ es := by
  induction es with
  | nil => simp [child?]
  | cons e es ih =>
    obtain ⟨name', n'⟩ := e
    obtain ⟨-, h2, -, h4⟩ := entriesAreProper_cons.mp h
    have ih := ih h4
    unfold child? at ih ⊢
    rw [List.find?_cons, List.mem_cons]
    by_cases hn : name' = name
    · subst hn
      have hnot : (name', n) ∉ es := fun hm => h2 _ hm rfl
      simp [hnot, eq_comm]
    · have hne : (name' == name) = false := beq_false_of_ne hn
      have hp : (name, n) ≠ (name', n') := fun he => hn (Prod.mk.inj he).1.symm
      simp only [hne, hp, false_or]
      exact ih

theorem mem_setEntry {name : Name} {n : Node} {es : Folder} {e : Name × Node}
    (h : e ∈ setEntry name n es) : e.1 = name ∨ ∃ e' ∈ es, e'.1 = e.1 := by
  induction es with
  | nil =>
    obtain rfl := List.mem_singleton.mp h
    exact .inl rfl
  | cons d es ih =>
    rw [setEntry] at h
    split at h
    · rcases List.mem_cons.mp h with rfl | h
      · exact .inl rfl
      · exact .inr ⟨e, List.mem_cons_of_mem _ h, rfl⟩
    · rcases List.mem_cons.mp h with rfl | h
      · exact .inr ⟨e, List.mem_cons_self, rfl⟩
      · rcases ih h with he | ⟨e', he', hn⟩
        · exact .inl he
        · exact .inr ⟨e', List.mem_cons_of_mem _ he', hn⟩

/-- An entry that is set leaves a folder proper. -/
theorem entriesAreProper_setEntry {name : Name} {n : Node} {es : Folder}
    (h : entriesAreProper es = true) (hname : Path.isName name = true) (hn : n.isProper = true) :
    entriesAreProper (setEntry name n es) = true := by
  induction es with
  | nil => exact entriesAreProper_cons.mpr ⟨hname, by simp, hn, rfl⟩
  | cons d es ih =>
    obtain ⟨name', n'⟩ := d
    obtain ⟨h1, h2, h3, h4⟩ := entriesAreProper_cons.mp h
    rw [setEntry]
    split
    · next he =>
      change name' = name at he
      subst he
      exact entriesAreProper_cons.mpr ⟨hname, h2, hn, h4⟩
    · next he =>
      refine entriesAreProper_cons.mpr ⟨h1, ?_, h3, ih h4⟩
      intro e hm
      rcases mem_setEntry hm with hen | ⟨e', he', hen⟩
      · rw [hen]
        exact Ne.symm he
      · rw [← hen]
        exact h2 e' he'

/-! ## Spots -/

/-- A place in a tree: a node, and the folders above it, the nearest first, each with the name of
the entry that leads down. -/
structure Spot where
  node : Node
  above : List (Folder × Name)

/-- The tree with another node at the place. -/
def rebuild (n : Node) : List (Folder × Name) → Node
  | [] => n
  | (es, name) :: above => rebuild (.folder (setEntry name n es)) above

/-- Follows the pieces of a path. -/
def Spot.follow (s : Spot) : List Name → Except FileError Spot
  | [] => .ok s
  | piece :: ps =>
    match s.node with
    | .file _ => .error .notAFolder
    | .folder es =>
      if piece = [] ∨ piece = Path.dot then s.follow ps
      else if piece = Path.dotDot then
        match s.above with
        | [] => .error .missing
        | (up, _) :: above => Spot.follow ⟨.folder up, above⟩ ps
      else
        match child? es piece with
        | none => .error .missing
        | some n => Spot.follow ⟨n, (es, piece) :: s.above⟩ ps

/-- One piece of a path leads from the first spot to the second. -/
inductive Spot.Step : Spot → Name → Spot → Prop
  | stay {es : Folder} {above : List (Folder × Name)} {piece : Name} :
      piece = [] ∨ piece = Path.dot → Step ⟨.folder es, above⟩ piece ⟨.folder es, above⟩
  | up {es : Folder} {a : Folder × Name} {above : List (Folder × Name)} :
      Step ⟨.folder es, a :: above⟩ Path.dotDot ⟨.folder a.1, above⟩
  | down {es : Folder} {above : List (Folder × Name)} {piece : Name} {n : Node} :
      piece ≠ [] → piece ≠ Path.dot → piece ≠ Path.dotDot → child? es piece = some n →
      Step ⟨.folder es, above⟩ piece ⟨n, (es, piece) :: above⟩

/-- A path is followed step by step. -/
theorem Spot.follow_cons_eq_ok_iff {s u : Spot} {piece : Name} {ps : List Name} :
    s.follow (piece :: ps) = .ok u ↔ ∃ v, s.Step piece v ∧ v.follow ps = .ok u := by
  constructor
  · intro h
    obtain ⟨node, above⟩ := s
    rw [follow] at h
    cases node with
    | file content => cases h
    | folder es =>
      simp only at h
      split at h
      · next hstay => exact ⟨_, .stay hstay, h⟩
      · next hstay =>
        rw [not_or] at hstay
        split at h
        · next hup =>
          cases above with
          | nil => cases h
          | cons a above => exact ⟨_, hup ▸ .up, h⟩
        · next hup =>
          cases hc : child? es piece with
          | none =>
            rw [hc] at h
            cases h
          | some n =>
            rw [hc] at h
            exact ⟨_, .down hstay.1 hstay.2 hup hc, h⟩
  · rintro ⟨v, hv, h⟩
    cases hv with
    | stay hstay =>
      rw [follow]
      simp only [hstay, if_true]
      exact h
    | up => exact h
    | down h1 h2 h3 hc =>
      rw [follow]
      simp only [h1, h2, h3, or_self, if_false, hc]
      exact h

/-- The node and the folders above it are proper. -/
structure Spot.IsProper (s : Spot) : Prop where
  node : s.node.isProper = true
  above : ∀ a ∈ s.above, entriesAreProper a.1 = true ∧ Path.isName a.2 = true

namespace Spot.IsProper

variable {s v u : Spot}

theorem entries (h : s.IsProper) {es : Folder} (hs : s.node = .folder es) :
    entriesAreProper es = true := by
  have hn := h.node
  rwa [hs] at hn

theorem down (h : s.IsProper) {es : Folder} (hs : s.node = .folder es) {name : Name} {n : Node}
    (hm : (name, n) ∈ es) : Spot.IsProper ⟨n, (es, name) :: s.above⟩ := by
  have hes := h.entries hs
  obtain ⟨hname, hn⟩ := proper_of_mem hes hm
  exact ⟨hn, List.forall_mem_cons.mpr ⟨⟨hes, hname⟩, h.above⟩⟩

theorem step (h : s.IsProper) {piece : Name} (hv : s.Step piece v) : v.IsProper := by
  cases hv with
  | stay _ => exact h
  | up =>
    obtain ⟨ha, habove⟩ := List.forall_mem_cons.mp h.above
    exact ⟨ha.1, habove⟩
  | down _ _ _ hc => exact h.down rfl ((child?_eq_some_iff (h.entries rfl)).mp hc)

theorem follow (h : s.IsProper) {ps : List Name} (hf : s.follow ps = .ok u) : u.IsProper := by
  induction ps generalizing s with
  | nil =>
    obtain rfl := Except.ok.inj hf
    exact h
  | cons piece ps ih =>
    obtain ⟨v, hv, hf⟩ := follow_cons_eq_ok_iff.mp hf
    exact ih (h.step hv) hf

end Spot.IsProper

/-- The tree is proper with another proper node at a place. -/
theorem isProper_rebuild {n : Node} (hn : n.isProper = true) {above : List (Folder × Name)}
    (h : ∀ a ∈ above, entriesAreProper a.1 = true ∧ Path.isName a.2 = true) :
    (rebuild n above).isProper = true := by
  induction above generalizing n with
  | nil => exact hn
  | cons a above ih =>
    obtain ⟨⟨hes, hname⟩, habove⟩ := List.forall_mem_cons.mp h
    rw [rebuild]
    exact ih (entriesAreProper_setEntry hes hname hn) habove

end Files

open Files

/-! ## Trees -/

/-- The files below the working folder. -/
structure FileTree where
  entries : Folder := []
  proper : entriesAreProper entries = true := by decide

namespace FileTree

def top (t : FileTree) : Spot := ⟨.folder t.entries, []⟩

theorem isProper_top (t : FileTree) : t.top.IsProper := ⟨t.proper, List.forall_mem_nil _⟩

/-- The tree whose working folder is the given node. -/
def ofTop : (n : Node) → n.isProper = true → FileTree
  | .folder es, h => ⟨es, h⟩
  | .file _, _ => {}

/-- The place that a path leads to. -/
def spot (t : FileTree) (p : Path) : Except FileError Spot :=
  if p.bytes.isEmpty || p.isAbsolute then .error .missing else t.top.follow p.pieces

def contains (t : FileTree) (p : Path) : Bool := (t.spot p).isOk

def hasFile (t : FileTree) (p : Path) : Bool :=
  match t.spot p with
  | .ok s => s.node.isFile
  | .error _ => false

def read (t : FileTree) (p : Path) : Except FileError (List UInt8) :=
  match t.spot p with
  | .error e => .error e
  | .ok s =>
    match s.node with
    | .file content => .ok content
    | .folder _ => .error .isAFolder

def readText (t : FileTree) (p : Path) : Except FileError (List Char) :=
  match t.read p with
  | .error e => .error e
  | .ok content =>
    match Text.ofUtf8? content with
    | some s => .ok s
    | none => .error .notText

/-! ## Writing -/

/-- Where a file can be written under a path: a name, which no folder has, in a folder that is
there. -/
structure Site (t : FileTree) (p : Path) where
  spot : Spot
  entries : Folder
  name : Name
  nonempty : p.bytes ≠ []
  relative : p.isAbsolute = false
  last : p.pieces.getLastD [] = name
  above : t.top.follow p.pieces.dropLast = .ok spot
  folder : spot.node = .folder entries
  leads : ¬(name = [] ∨ name = Path.dot ∨ name = Path.dotDot)
  free : (child? entries name).any Node.isFolder = false

namespace Site

variable {t : FileTree} {p : Path}

theorem isName (s : Site t p) : Path.isName s.name = true := by
  obtain ⟨h1, h2, h3⟩ : s.name ≠ [] ∧ s.name ≠ Path.dot ∧ s.name ≠ Path.dotDot := by
    simpa only [not_or] using s.leads
  have hm : s.name ∈ p.pieces := by
    rw [← s.last]
    exact (List.mem_cons.mp List.getLastD_mem_cons).resolve_left (s.last ▸ h1)
  exact Path.isName_iff.mpr ⟨h1, h2, h3, Path.slash_not_mem_piecesFrom List.not_mem_nil _ hm⟩

/-- The working folder with a file of the given content there. -/
def topWith (s : Site t p) (content : List UInt8) : Node :=
  rebuild (.folder (setEntry s.name (.file content) s.entries)) s.spot.above

theorem isProper_topWith (s : Site t p) (content : List UInt8) :
    (s.topWith content).isProper = true := by
  have hspot := t.isProper_top.follow s.above
  have hnode : (Node.folder (setEntry s.name (.file content) s.entries)).isProper = true :=
    entriesAreProper_setEntry (hspot.entries s.folder) s.isName rfl
  exact isProper_rebuild hnode hspot.above

/-- The tree with a file of the given content there. -/
def put (s : Site t p) (content : List UInt8) : FileTree :=
  .ofTop (s.topWith content) (s.isProper_topWith content)

end Site

/-- Looks for the site of a path. -/
def site (t : FileTree) (p : Path) : Except FileError (Site t p) :=
  if hrel : p.bytes.isEmpty || p.isAbsolute then .error .missing
  else
    match habove : t.top.follow p.pieces.dropLast with
    | .error e => .error e
    | .ok s =>
      match hfolder : s.node with
      | .file _ => .error .notAFolder
      | .folder es =>
        let name := p.pieces.getLastD []
        if hleads : name = [] ∨ name = Path.dot ∨ name = Path.dotDot then .error .isAFolder
        else if hfree : (child? es name).any Node.isFolder then .error .isAFolder
        else
          have hrel : p.bytes ≠ [] ∧ p.isAbsolute = false := by simpa using hrel
          .ok ⟨s, es, name, hrel.1, hrel.2, rfl, habove, hfolder, hleads, by simpa using hfree⟩

/-- Writes a file into a folder that is there. -/
def write (t : FileTree) (p : Path) (content : List UInt8) : Except FileError Unit × FileTree :=
  match t.site p with
  | .error e => (.error e, t)
  | .ok s => (.ok (), s.put content)

/-! ## Adding files -/

/-- Puts a node under the names of folders and its own; missing folders are made. -/
def place (n : Node) : List Name → Folder → Folder
  | [], es => es
  | [name], es => setEntry name n es
  | name :: names, es =>
    match child? es name with
    | some (.folder inner) => setEntry name (.folder (place n names inner)) es
    | _ => setEntry name (.folder (place n names [])) es

theorem entriesAreProper_place {n : Node} (hn : n.isProper = true) {names : List Name}
    (hnames : ∀ name ∈ names, Path.isName name = true) {es : Folder}
    (h : entriesAreProper es = true) : entriesAreProper (place n names es) = true := by
  induction names generalizing es with
  | nil => exact h
  | cons name names ih =>
    obtain ⟨hname, hnames⟩ := List.forall_mem_cons.mp hnames
    cases names with
    | nil => exact entriesAreProper_setEntry h hname hn
    | cons name' names =>
      rw [place]
      · split
        · next inner hc =>
          have hinner := (proper_of_mem h ((child?_eq_some_iff h).mp hc)).2
          exact entriesAreProper_setEntry h hname (ih hnames hinner)
        · exact entriesAreProper_setEntry h hname (ih hnames rfl)
      · simp

/-- The tree with a node under names. -/
def withNode (t : FileTree) (n : Node) (hn : n.isProper = true) (names : List Name) : FileTree :=
  ⟨place n (names.filter Path.isName) t.entries,
    entriesAreProper_place hn (fun _ h => (List.mem_filter.mp h).2) t.proper⟩

/-- Adds a file with its content, or an empty folder, and the folders above it. A folder that is
there stays as it is. -/
def add (t : FileTree) (p : Path) (content : Option (List UInt8)) : FileTree :=
  match content with
  | some content => t.withNode (.file content) rfl p.pieces
  | none => if t.contains p then t else t.withNode (.folder []) rfl p.pieces

end FileTree

end MarkupLint
