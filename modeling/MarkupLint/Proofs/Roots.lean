import Mathlib
import MarkupLint.Proofs.Floating
import MarkupLint.Proofs.Overlap

/-!
# Roots and patterns

Patterns are matched against the path of a file as the walk spells it, which is the root with the
names behind it that lead down. From every folder above it that is named as a root, a file is
spelled by its names; from a single dot it is spelled with a dot and a slash before them. So the
named roots agree on a file, and the dot agrees with them unless a pattern tells the two spellings
apart. A folder whose name is a hyphen cannot be named as a root: that is the standard input.

Results:
1. `In.exists_above`, `spot_namePath`: the places above a place, and its path.
2. `components_namePath`, `bytes_foldl_join`, `foldl_join_dot`: how a place is spelled.
3. `isIgnored_of_silent`, `visit_of_leads`: without ignore files, a walk visits everything below.
4. `selects_iff`: what a root selects.
5. `admitted_dotted`: patterns that float.
6. `selects_as_spelled`: roots and patterns, and `selects_depends_on_root`: a pattern that tells the
   two spellings apart.
-/

namespace MarkupLint

open Files

/-! ## Definitions -/

namespace Files

/-- The folder holds no ignore file: no general one, none of a repository, and no list of
exclusions. -/
def holdsNoIgnoreFile (es : Folder) : Bool :=
  !(child? es (nameOf ".ignore")).any Node.isFile &&
    !(child? es (nameOf ".gitignore")).any Node.isFile &&
    !(descend [nameOf "info", nameOf "exclude"] (child? es (nameOf ".git"))).any Node.isFile

mutual

/-- No folder from the node on holds an ignore file. -/
def Node.hidesNothing : Node → Bool
  | .file _ => true
  | .folder es => holdsNoIgnoreFile es && entriesHideNothing es

/-- No folder from the entries on holds an ignore file. -/
def entriesHideNothing : List (Name × Node) → Bool
  | [] => true
  | (_, n) :: es => n.hidesNothing && entriesHideNothing es

end

/-- The level has no rules. -/
def IgnoreLevel.IsSilent (l : IgnoreLevel) : Prop :=
  l.general = [] ∧ l.shared = [] ∧ l.exclusions = []

end Files

/-- No folder of the tree holds an ignore file. -/
def FileTree.hidesNothing (t : FileTree) : Bool := t.top.node.hidesNothing

/-- The names lead to a file of the tree. -/
def FileTree.HasFileAt (t : FileTree) (names : List Name) : Prop :=
  ∃ s : Spot, s.In t ∧ s.names = names ∧ s.node.isFile = true

/-- The relative path that names spell. -/
def namePath (names : List Name) : Path := names.foldl Path.join ⟨[]⟩

/-- The file at the place is selected when it is reached from the root. -/
def Selects (t : FileTree) (includes excludes : List String) (root : Path) (place : List Name) :
    Prop :=
  ∃ p, Yields t includes excludes root p ∧ t.place? p = some place

/-- The patterns are globs and admit the path. -/
def admitted (includes excludes : List String) (p : Path) : Bool :=
  match Selection.ofPatterns includes excludes with
  | .ok s => s.admits p
  | .error _ => false

namespace Files

/-! ## 1. Places above -/

variable {t : FileTree} {p q root : Path} {s u : Spot}

/-- One goes down one more step. -/
theorem Leads.snoc (h : Leads p s q u) {es : Folder} (hu : u.node = .folder es) {name : Name}
    {n : Node} (hm : (name, n) ∈ es) : Leads p s (q.join name) ⟨n, (es, name) :: u.above⟩ := by
  induction h with
  | here p s => exact .down hu hm (.here _ _)
  | down hs hm' _ ih => exact .down hs hm' (ih hu)

/-- From each place above a place, whatever its path is, one goes down to the place. -/
theorem Spot.In.exists_above (h : s.In t) (names : List Name) {below : List Name}
    (hn : s.names = names ++ below) :
    ∃ s₀, Spot.In t s₀ ∧ s₀.names = names ∧ ∀ p, Leads p s₀ (below.foldl Path.join p) s := by
  induction below using List.reverseRecOn generalizing s with
  | nil =>
    rw [List.append_nil] at hn
    exact ⟨s, h, hn, fun p => .here p s⟩
  | append_singleton below name ih =>
    rw [← List.append_assoc] at hn
    cases h with
    | top => simp at hn
    | @down u es name' n hu hes hm =>
      rw [Spot.names_down] at hn
      obtain ⟨hup, hname⟩ := List.append_inj' hn rfl
      obtain rfl := List.singleton_inj.mp hname
      obtain ⟨s₀, h₀, hn₀, hl⟩ := ih hu hup
      refine ⟨s₀, h₀, hn₀, fun p => ?_⟩
      rw [List.foldl_append]
      exact (hl p).snoc hes hm

theorem namePath_cons (name : Name) (names : List Name) :
    namePath (name :: names) = names.foldl Path.join ⟨name⟩ := rfl

/-- The names of a place spell a path to it. -/
theorem spot_namePath (h : s.In t) (hne : s.names ≠ []) : t.spot (namePath s.names) = .ok s := by
  obtain ⟨name, names, hn⟩ := List.exists_cons_of_ne_nil hne
  have hname : Path.isName name = true := h.isName name (by rw [hn]; exact List.mem_cons_self)
  obtain ⟨s₀, h₀, hn₀, hl⟩ := h.exists_above [name] hn
  have hs₀ : t.spot ⟨name⟩ = .ok s₀ := by
    cases h₀ with
    | top => simp at hn₀
    | @down u es name' n hu hes hm =>
      rw [Spot.names_down] at hn₀
      obtain ⟨hu₀, hname'⟩ := List.append_inj' (hn₀.trans (List.nil_append _).symm) rfl
      obtain rfl := List.singleton_inj.mp hname'
      obtain rfl := hu.unique .top hu₀
      refine spot_of_follow (Path.isName_iff.mp hname).1 (Path.isAbsolute_name hname) ?_
      rw [Path.pieces_name hname]
      exact Spot.follow_name hes (hu.entries hes) hm
  rw [hn, namePath_cons]
  exact (hl ⟨name⟩).spot hs₀

/-! ## 2. Spelling -/

theorem components_namePath {names : List Name} (hne : names ≠ [])
    (hn : ∀ name ∈ names, Path.isName name = true) :
    (namePath names).components = names.map .name := by
  obtain ⟨name, names, rfl⟩ := List.exists_cons_of_ne_nil hne
  obtain ⟨hname, hn⟩ := List.forall_mem_cons.mp hn
  have hone : Path.components ⟨name⟩ = [.name name] := by
    rw [Path.components, Path.pieces_name hname]
    simp [Path.isAbsolute_name hname, Path.component?_of_isName hname]
  rw [namePath_cons, Path.components_foldl_join (Path.isName_iff.mp hname).1 hn, hone]
  rfl

theorem getLast?_ne_slash {name : Name} (h : Path.isName name = true) (bs : List UInt8) :
    (bs ++ name).getLast? ≠ some Path.slash := by
  obtain ⟨h1, -, -, h4⟩ := Path.isName_iff.mp h
  rw [List.getLast?_append_of_ne_nil bs h1]
  intro hl
  exact h4 (List.mem_of_getLast? hl)

theorem bytes_foldl_join (hp : p.bytes ≠ []) (hl : p.bytes.getLast? ≠ some Path.slash)
    {names : List Name} (hn : ∀ name ∈ names, Path.isName name = true) :
    (names.foldl Path.join p).bytes = p.bytes ++ names.flatMap (Path.slash :: ·) := by
  induction names generalizing p with
  | nil => simp
  | cons name names ih =>
    obtain ⟨hname, hn⟩ := List.forall_mem_cons.mp hn
    have hj : (p.join name).bytes = p.bytes ++ Path.slash :: name := by
      rw [Path.join, if_neg]
      rw [List.isEmpty_iff, not_or]
      exact ⟨hp, hl⟩
    have hlj : (p.join name).bytes.getLast? ≠ some Path.slash := by
      rw [hj, List.append_cons]
      exact getLast?_ne_slash hname _
    rw [List.foldl_cons, ih (Path.join_ne_nil p (Path.isName_iff.mp hname).1) hlj hn, hj]
    simp

/-- From the dot, a place is spelled with a dot and a slash before its names. -/
theorem foldl_join_dot {names : List Name} (hne : names ≠ [])
    (hn : ∀ name ∈ names, Path.isName name = true) :
    names.foldl Path.join (.ofString ".") = (namePath names).dotted := by
  have hdot : (Path.ofString ".").bytes = Path.dot := by decide
  have hstart := bytes_foldl_join (p := .ofString ".") (by decide) (by decide) hn
  obtain ⟨name, names, rfl⟩ := List.exists_cons_of_ne_nil hne
  obtain ⟨hname, hn⟩ := List.forall_mem_cons.mp hn
  have hnames : (namePath (name :: names)).bytes = name ++ names.flatMap (Path.slash :: ·) :=
    bytes_foldl_join (Path.isName_iff.mp hname).1 (getLast?_ne_slash hname []) hn
  refine congrArg Path.mk (hstart.trans ?_)
  rw [hdot, hnames]
  rfl

/-! ## 3. Trees without ignore files -/

theorem rulesOf_eq_nil {n : Option Node} (h : n.any Node.isFile = false) : rulesOf n = [] := by
  cases n with
  | none => rfl
  | some n =>
    cases n with
    | file content => cases h
    | folder es => rfl

theorem isSilent_ofFolder {es : Folder} (h : holdsNoIgnoreFile es = true) :
    (IgnoreLevel.ofFolder es).IsSilent := by
  simp only [holdsNoIgnoreFile, Bool.and_eq_true, Bool.not_eq_true'] at h
  obtain ⟨⟨hgeneral, hshared⟩, hexclusions⟩ := h
  exact ⟨rulesOf_eq_nil hgeneral, rulesOf_eq_nil hshared, rulesOf_eq_nil hexclusions⟩

theorem upToTop_subset (ls : List IgnoreLevel) : upToTop ls ⊆ ls := by
  induction ls with
  | nil => exact List.Subset.refl _
  | cons l ls ih =>
    rw [upToTop]
    split
    · simp
    · exact List.cons_subset_cons l ih

theorem isIgnored_of_silent {levels : List IgnoreLevel} (h : ∀ l ∈ levels, l.IsSilent)
    (name : Name) (isFolder : Bool) : isIgnored levels name isFolder = false := by
  have hnone (rules : IgnoreLevel → List IgnoreRule) (ls : List IgnoreLevel) (hls : ls ⊆ levels)
      (hr : ∀ l, l.IsSilent → rules l = []) :
      ls.findSome? (fun l => verdict (rules l) (l.pathTo name) isFolder) = none := by
    rw [List.findSome?_eq_none_iff]
    intro l hl
    rw [hr l (h l (hls hl))]
    rfl
  have hsub : (if levels.any (·.isTop) then upToTop levels else []) ⊆ levels := by
    split
    · exact upToTop_subset levels
    · exact List.nil_subset _
  rw [isIgnored, levelsVerdict, hnone _ _ (List.Subset.refl _) fun l hl => hl.1,
    hnone _ _ hsub fun l hl => hl.2.1, hnone _ _ hsub fun l hl => hl.2.2]
  rfl

theorem hidesNothing_of_mem {es : Folder} (h : entriesHideNothing es = true) {name : Name}
    {n : Node} (hm : (name, n) ∈ es) : n.hidesNothing = true := by
  induction es with
  | nil => cases hm
  | cons e es ih =>
    obtain ⟨name', n'⟩ := e
    rw [entriesHideNothing, Bool.and_eq_true] at h
    rcases List.mem_cons.mp hm with he | hm
    · obtain ⟨-, rfl⟩ := Prod.mk.inj he
      exact h.1
    · exact ih h.2 hm

theorem mem_visitEntries {levels : List IgnoreLevel} (hl : ∀ l ∈ levels, l.IsSilent) {es : Folder}
    {name : Name} {n : Node} (hm : (name, n) ∈ es) {v : Path × Bool}
    (hv : v ∈ visit (levels.map (·.down name)) (p.join name) n) : v ∈ visitEntries levels p es := by
  induction es with
  | nil => cases hm
  | cons e es ih =>
    obtain ⟨name', n'⟩ := e
    rw [visitEntries, isIgnored_of_silent hl, if_neg Bool.false_ne_true]
    rcases List.mem_cons.mp hm with he | hm
    · obtain ⟨rfl, rfl⟩ := Prod.mk.inj he
      exact List.mem_append_left _ hv
    · exact List.mem_append_right _ (ih hm)

/-- Without ignore files, a walk visits everything below its root. -/
theorem visit_of_leads (h : Leads p s q u) (hs : s.node.hidesNothing = true)
    {levels : List IgnoreLevel} (hl : ∀ l ∈ levels, l.IsSilent) :
    (q, u.node.isFile) ∈ visit levels p s.node := by
  induction h generalizing levels with
  | here p s =>
    cases hn : s.node with
    | file content =>
      rw [visit]
      exact List.mem_singleton_self _
    | folder es =>
      rw [visit]
      exact List.mem_cons_self
  | @down p q s u es name n hes hm _ ih =>
    rw [hes, Node.hidesNothing, Bool.and_eq_true] at hs
    rw [hes, visit]
    have hls : ∀ l ∈ IgnoreLevel.ofFolder es :: levels, l.IsSilent :=
      List.forall_mem_cons.mpr ⟨isSilent_ofFolder hs.1, hl⟩
    refine List.mem_cons_of_mem _ (mem_visitEntries hls hm (ih (hidesNothing_of_mem hs.2 hm) ?_))
    intro l hl
    obtain ⟨l', hl', rfl⟩ := List.mem_map.mp hl
    exact hls l' hl'

/-- Without ignore files, the folders above a place have no rules. -/
theorem Spot.In.hidesNothing (ht : t.hidesNothing = true) (h : s.In t) :
    s.node.hidesNothing = true ∧ ∀ way, ∀ l ∈ levelsAbove way s.above, l.IsSilent := by
  induction h with
  | top => exact ⟨ht, by simp [FileTree.top, levelsAbove]⟩
  | @down s es name n _ hes hm ih =>
    obtain ⟨hn, hl⟩ := ih
    rw [hes, Node.hidesNothing, Bool.and_eq_true] at hn
    refine ⟨hidesNothing_of_mem hn.2 hm, fun way => ?_⟩
    rw [levelsAbove]
    exact List.forall_mem_cons.mpr ⟨isSilent_ofFolder hn.1, hl _⟩

/-! ## 4. What a root selects -/

variable {includes excludes : List String}

theorem admitted_eq_true_iff : admitted includes excludes p = true ↔
    ∃ s, Selection.ofPatterns includes excludes = .ok s ∧ s.admits p = true := by
  rw [admitted]
  cases Selection.ofPatterns includes excludes <;> simp

/-- A root from which one goes down to a file selects it if and only if the patterns admit the path
on the way. -/
theorem selects_iff (hh : t.hidesNothing = true) (hr : root.same standardInput = false)
    (hs : t.spot root = .ok s) (hl : Leads root s p u) (hu : u.node.isFile = true) :
    Selects t includes excludes root u.names ↔ admitted includes excludes p = true := by
  have hin := in_of_spot hs
  have hp := hl.spot hs
  rw [admitted_eq_true_iff]
  constructor
  · rintro ⟨q, hy, hq⟩
    obtain ⟨sel, vs, hsel, hv, hm, ha⟩ := yields_iff.mp hy
    obtain ⟨s', u', hs', hl', -⟩ := leads_of_yields hy
    obtain rfl := Except.ok.inj (hs.symm.trans hs')
    -- both ways lead down by the same names
    obtain ⟨below, hn, rfl⟩ := hl.names
    obtain ⟨below', hn', rfl⟩ := hl'.names
    obtain ⟨u'', hu'', he⟩ := place?_eq_some_iff.mp hq
    obtain rfl := Except.ok.inj ((hl'.spot hs).symm.trans hu'')
    rw [hn, hn', List.append_cancel_left_eq] at he
    rw [he] at ha
    exact ⟨sel, hsel, ha⟩
  · rintro ⟨sel, hsel, ha⟩
    obtain ⟨hn, hlevels⟩ := hin.hidesNothing hh
    have hv := visits_eq_ok_iff.mpr (.inr ⟨hr, s, hs, rfl⟩)
    have hm := visit_of_leads hl hn (hlevels [])
    rw [hu] at hm
    exact ⟨p, yields_iff.mpr ⟨sel, _, hsel, hv, hm, ha⟩, place?_eq_some_iff.mpr ⟨u, hp, rfl⟩⟩

theorem selects_dot_iff (hh : t.hidesNothing = true) {place : List Name} (hf : t.HasFileAt place) :
    Selects t includes excludes (.ofString ".") place ↔
      admitted includes excludes (namePath place).dotted = true := by
  obtain ⟨u, hu, rfl, hfile⟩ := hf
  have hne : u.names ≠ [] := by
    cases hu with
    | top => cases hfile
    | down => simp
  obtain ⟨s, hs, hn, hl⟩ := hu.exists_above [] rfl
  obtain rfl := hs.unique .top hn
  rw [← foldl_join_dot hne hu.isName]
  refine selects_iff hh (by decide) ?_ (hl _) hfile
  exact spot_of_follow (by decide) (by decide) rfl

theorem selects_named_iff (hh : t.hidesNothing = true) {names place : List Name}
    (hf : t.HasFileAt place) (hne : names ≠ []) (hpre : names <+: place)
    (hhyphen : names ≠ [nameOf "-"]) : Selects t includes excludes (namePath names) place ↔
      admitted includes excludes (namePath place) = true := by
  obtain ⟨u, hu, rfl, hfile⟩ := hf
  obtain ⟨below, hb⟩ := hpre
  obtain ⟨s, hs, rfl, hl⟩ := hu.exists_above names hb.symm
  have hin : (namePath s.names).same standardInput = false := by
    rw [← Bool.not_eq_true, Path.same_iff, components_namePath hne hs.isName]
    intro he
    have hstd : standardInput.components = [.name (nameOf "-")] := by decide
    rw [hstd, List.map_eq_singleton_iff] at he
    obtain ⟨name, hs, hname⟩ := he
    rw [hs, Path.Component.name.inj hname] at hhyphen
    exact hhyphen rfl
  have hpath : namePath u.names = below.foldl Path.join (namePath s.names) := by
    rw [namePath, ← hb, List.foldl_append]
    rfl
  rw [hpath]
  exact selects_iff hh hin (spot_namePath hs hne) (hl _) hfile

/-- Nothing is selected from the standard input. -/
theorem not_selects_hyphen (place : List Name) :
    ¬ Selects t includes excludes (namePath [nameOf "-"]) place := by
  rintro ⟨p, hy, -⟩
  obtain ⟨_, vs, -, hv, hm, -⟩ := yields_iff.mp hy
  have hin : (namePath [nameOf "-"]).same standardInput = true := by decide
  rcases visits_eq_ok_iff.mp hv with ⟨-, rfl⟩ | ⟨hout, -⟩
  · simp at hm
  · rw [hin] at hout
    cases hout

/-! ## 5. Patterns that float -/

theorem readGlobs_cons_eq_ok_iff {pattern : String} {patterns : List String} {gs : List Glob} :
    readGlobs (pattern :: patterns) = .ok gs ↔ ∃ g gs', Glob.ofText {} pattern = .ok g ∧
      readGlobs patterns = .ok gs' ∧ gs = g :: gs' := by
  rw [readGlobs, List.mapM_cons]
  cases Glob.ofText {} pattern with
  | error e => simp [bind, Except.bind]
  | ok g =>
    rw [← readGlobs]
    cases readGlobs patterns with
    | error e => simp [bind, Except.bind]
    | ok gs' => simp [bind, Except.bind, pure, Except.pure, eq_comm]

theorem any_isMatch_dotted {patterns : List String} {gs : List Glob}
    (h : readGlobs patterns = .ok gs) (hf : ∀ pattern ∈ patterns, Glob.floats pattern = true)
    (p : Path) : gs.any (·.isMatch p.dotted) = gs.any (·.isMatch p) := by
  induction patterns generalizing gs with
  | nil =>
    obtain rfl := Except.ok.inj h
    rfl
  | cons pattern patterns ih =>
    obtain ⟨g, gs', hg, hgs, rfl⟩ := readGlobs_cons_eq_ok_iff.mp h
    obtain ⟨hfloat, hf⟩ := List.forall_mem_cons.mp hf
    rw [List.any_cons, List.any_cons, ih hgs hf, Glob.isMatch_dotted hfloat hg]

/-- Patterns that all float admit a path with a dot and a slash before it if and only if they admit
the path. -/
theorem admitted_dotted (hf : ∀ pattern ∈ includes ++ excludes, Glob.floats pattern = true)
    (p : Path) : admitted includes excludes p.dotted = admitted includes excludes p := by
  rw [List.forall_mem_append] at hf
  have hstore : ∀ pattern ∈ excludes ++ [storePattern], Glob.floats pattern = true := by
    rw [List.forall_mem_append]
    exact ⟨hf.2, List.forall_mem_singleton.mpr (by decide +kernel)⟩
  rw [admitted, admitted, Selection.ofPatterns]
  cases hi : readGlobs includes with
  | error e => rfl
  | ok is =>
    cases he : readGlobs (excludes ++ [storePattern]) with
    | error e => rfl
    | ok es =>
      simp only [Except.map, Selection.admits]
      rw [any_isMatch_dotted hi hf.1, any_isMatch_dotted he hstore]

/-! ## 6. Roots and patterns -/

/-- How the selection of a file depends on the root. -/
structure SelectsAsSpelled (t : FileTree) (includes excludes : List String) (place : List Name) :
    Prop where
  /-- From the dot, the patterns must admit the names with a dot and a slash before them. -/
  dot : Selects t includes excludes (.ofString ".") place ↔
    admitted includes excludes (namePath place).dotted = true
  /-- From each folder above, named as a root, and from the file itself, the patterns must admit the
  names. -/
  named : ∀ names, names ≠ [] → names <+: place → names ≠ [nameOf "-"] →
    (Selects t includes excludes (namePath names) place ↔
      admitted includes excludes (namePath place) = true)
  /-- A hyphen is no name of a folder. -/
  hyphen : ¬ Selects t includes excludes (namePath [nameOf "-"]) place
  /-- Patterns that float cannot tell the dot from a named folder. -/
  floating : (∀ pattern ∈ includes ++ excludes, Glob.floats pattern = true) →
    ∀ names, names ≠ [] → names <+: place → names ≠ [nameOf "-"] →
      (Selects t includes excludes (.ofString ".") place ↔
        Selects t includes excludes (namePath names) place)

theorem selects_as_spelled (hh : t.hidesNothing = true) {place : List Name}
    (hf : t.HasFileAt place) : SelectsAsSpelled t includes excludes place where
  dot := selects_dot_iff hh hf
  named _ := selects_named_iff hh hf
  hyphen := not_selects_hyphen place
  floating hfloat names hne hpre hhyphen := by
    rw [selects_dot_iff hh hf, selects_named_iff hh hf hne hpre hhyphen,
      admitted_dotted hfloat]

/-- A folder with a file. -/
def siteTree : FileTree :=
  { entries := [(nameOf "site", .folder [(nameOf "index.html", .file [])])] }

theorem siteTree_hasFileAt : siteTree.HasFileAt [nameOf "site", nameOf "index.html"] :=
  ⟨⟨.file [], _⟩, .down (.down .top rfl List.mem_cons_self) rfl List.mem_cons_self, rfl, rfl⟩

/-- With the patterns of the default configuration, the file is selected from both roots. -/
theorem selects_as_spelled_default :
    siteTree.hidesNothing = true ∧ siteTree.HasFileAt [nameOf "site", nameOf "index.html"] ∧
    Selects siteTree ["**/*.html", "**/*.htm"] [] (namePath [nameOf "site"])
      [nameOf "site", nameOf "index.html"] ∧
    Selects siteTree ["**/*.html", "**/*.htm"] [] (.ofString ".")
      [nameOf "site", nameOf "index.html"] := by
  have hh : siteTree.hidesNothing = true := by decide
  have h : SelectsAsSpelled siteTree ["**/*.html", "**/*.htm"] []
      [nameOf "site", nameOf "index.html"] := selects_as_spelled hh siteTree_hasFileAt
  have hnamed := (h.named [nameOf "site"] (by decide) (by decide) (by decide)).mpr
    (by decide +kernel)
  have hdot := (h.floating (by decide +kernel) [nameOf "site"] (by decide) (by decide)
    (by decide)).mpr hnamed
  exact ⟨hh, siteTree_hasFileAt, hnamed, hdot⟩

/-- With a pattern that starts with the name of a folder, the file is selected from the folder and
not from the dot. -/
theorem selects_depends_on_root :
    siteTree.hidesNothing = true ∧ siteTree.HasFileAt [nameOf "site", nameOf "index.html"] ∧
    ¬ (Selects siteTree ["site/**/*.html"] [] (.ofString ".")
        [nameOf "site", nameOf "index.html"] ↔
      Selects siteTree ["site/**/*.html"] [] (namePath [nameOf "site"])
        [nameOf "site", nameOf "index.html"]) := by
  have hh : siteTree.hidesNothing = true := by decide
  refine ⟨hh, siteTree_hasFileAt, ?_⟩
  rw [selects_dot_iff hh siteTree_hasFileAt,
    selects_named_iff hh siteTree_hasFileAt (by decide) (by decide) (by decide)]
  decide +kernel

end Files

end MarkupLint
