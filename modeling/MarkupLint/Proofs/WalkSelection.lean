import Mathlib
import MarkupLint.Proofs.Roots

/-!
# What a walk selects

Patterns are read one by one, and any of them may match: so only which patterns there are counts for
the selection of a path, not where they stand. One more pattern to exclude can only take files away,
and one more to include can only bring files in, but for the first one: without any, everything is
included.

The pattern for the store of a repository is always among those to exclude. It matches each path in
which the name of the store stands before a slash, at the start or after another slash. A component
that is not the last one stands there, however the path is spelled, so no file within a store is
selected.

Results:
1. `exists_ofPatterns_iff`, `admits_iff`: the patterns.
2. `exists_around_piece`, `mem_dropLast_pieces`: where a component stands.
3. `store_matches`, `store_not_mem_of_admits`: the store of a repository.
4. `status_iff`, `walkAll_congr`, `walk_yieldsNoMore`, `walk_of_subset`, `walkAll_of_same`: walks.
5. `walk_selects`: what a walk selects.
-/

namespace MarkupLint

/-! ## Definitions -/

/-- The pattern is a glob, and the path is in its language. -/
def Glob.Matches (pattern : String) (p : Path) : Prop :=
  ∃ ps, parse {} pattern.toList = .ok ps ∧ byteChars p.bytes ∈ globLanguage {} ps

namespace Files

/-- The patterns select the path. -/
structure Picks (includes excludes : List String) (p : Path) : Prop where
  included : includes = [] ∨ ∃ pattern ∈ includes, Glob.Matches pattern p
  notExcluded : ∀ pattern ∈ excludes ++ [storePattern], ¬ Glob.Matches pattern p

/-- A walk from the root comes to the path as a regular file. The standard input is none. -/
def IsFileFrom (t : FileTree) (root p : Path) : Prop :=
  root.same standardInput = false ∧ t.hasFile p = true

/-- The first walk fails as the second one does, or yields some of its files, in their order. -/
inductive YieldsNoMore : Except WalkError (List Path) → Except WalkError (List Path) → Prop
  | failed (e : WalkError) : YieldsNoMore (.error e) (.error e)
  | yielded {files files' : List Path} : files.Sublist files' →
      YieldsNoMore (.ok files) (.ok files')

variable {t : FileTree} {root p : Path} {includes excludes : List String} {s s' : Selection}

/-! ## 1. Patterns -/

theorem exists_readGlobs_iff {patterns : List String} : (∃ gs, readGlobs patterns = .ok gs) ↔
    ∀ pattern ∈ patterns, ∃ g, Glob.ofText {} pattern = .ok g := by
  induction patterns with
  | nil => exact ⟨nofun, fun _ => ⟨[], rfl⟩⟩
  | cons pattern patterns ih =>
    rw [List.forall_mem_cons, ← ih]
    constructor
    · rintro ⟨gs, h⟩
      obtain ⟨g, gs', hg, hgs, -⟩ := readGlobs_cons_eq_ok_iff.mp h
      exact ⟨⟨g, hg⟩, gs', hgs⟩
    · rintro ⟨⟨g, hg⟩, gs, hgs⟩
      exact ⟨g :: gs, readGlobs_cons_eq_ok_iff.mpr ⟨g, gs, hg, hgs, rfl⟩⟩

/-- The pattern for the store of a repository, part by part. -/
theorem parse_storePattern : Glob.parse {} storePattern.toList =
    .ok [.leading, .char '.', .char 'g', .char 'i', .char 't', .trailing] := rfl

theorem ofPatterns_eq_ok_iff : Selection.ofPatterns includes excludes = .ok s ↔
    readGlobs includes = .ok s.includes ∧
      readGlobs (excludes ++ [storePattern]) = .ok s.excludes := by
  obtain ⟨is, es⟩ := s
  rw [Selection.ofPatterns]
  cases readGlobs includes with
  | error e => simp
  | ok is' => cases readGlobs (excludes ++ [storePattern]) <;> simp [Except.map]

/-- The patterns are read if and only if all of them are globs. -/
theorem exists_ofPatterns_iff : (∃ s, Selection.ofPatterns includes excludes = .ok s) ↔
    ∀ pattern ∈ includes ++ excludes, ∃ g, Glob.ofText {} pattern = .ok g := by
  have hstore : ∃ g, Glob.ofText {} storePattern = .ok g :=
    ⟨_, by rw [Glob.ofText, parse_storePattern]; rfl⟩
  rw [List.forall_mem_append, ← exists_readGlobs_iff]
  have hes : (∃ es, readGlobs (excludes ++ [storePattern]) = .ok es) ↔
      ∀ pattern ∈ excludes, ∃ g, Glob.ofText {} pattern = .ok g := by
    rw [exists_readGlobs_iff, List.forall_mem_append, List.forall_mem_singleton]
    exact and_iff_left hstore
  rw [← hes]
  constructor
  · rintro ⟨s, hs⟩
    obtain ⟨hi, he⟩ := ofPatterns_eq_ok_iff.mp hs
    exact ⟨⟨_, hi⟩, _, he⟩
  · rintro ⟨⟨is, hi⟩, es, he⟩
    exact ⟨⟨is, es⟩, ofPatterns_eq_ok_iff.mpr ⟨hi, he⟩⟩

theorem isMatch_iff_matches {pattern : String} {g : Glob} (hg : Glob.ofText {} pattern = .ok g) :
    g.isMatch p = true ↔ Glob.Matches pattern p := by
  cases hp : Glob.parse {} pattern.toList with
  | error e =>
    rw [Glob.ofText, hp] at hg
    cases hg
  | ok ps => simp [Glob.Matches, hp, Glob.isMatch_iff hp hg]

theorem any_isMatch_iff {patterns : List String} {gs : List Glob}
    (h : readGlobs patterns = .ok gs) :
    gs.any (·.isMatch p) = true ↔ ∃ pattern ∈ patterns, Glob.Matches pattern p := by
  induction patterns generalizing gs with
  | nil =>
    obtain rfl := Except.ok.inj h
    simp
  | cons pattern patterns ih =>
    obtain ⟨g, gs', hg, hgs, rfl⟩ := readGlobs_cons_eq_ok_iff.mp h
    rw [List.any_cons, Bool.or_eq_true, isMatch_iff_matches hg, ih hgs, List.exists_mem_cons_iff]

theorem isEmpty_readGlobs {patterns : List String} {gs : List Glob}
    (h : readGlobs patterns = .ok gs) : gs.isEmpty = true ↔ patterns = [] := by
  cases patterns with
  | nil =>
    obtain rfl := Except.ok.inj h
    simp
  | cons pattern patterns =>
    obtain ⟨g, gs', -, -, rfl⟩ := readGlobs_cons_eq_ok_iff.mp h
    simp

/-- The selection admits what the patterns select. -/
theorem admits_iff (h : Selection.ofPatterns includes excludes = .ok s) :
    s.admits p = true ↔ Picks includes excludes p := by
  obtain ⟨hi, he⟩ := ofPatterns_eq_ok_iff.mp h
  have hex : (!s.excludes.any (·.isMatch p)) = true ↔
      ∀ pattern ∈ excludes ++ [storePattern], ¬ Glob.Matches pattern p := by
    rw [Bool.not_eq_true', ← Bool.not_eq_true, any_isMatch_iff he]
    simp only [not_exists, not_and]
  rw [Selection.admits, Bool.and_eq_true, Bool.or_eq_true, isEmpty_readGlobs hi, any_isMatch_iff hi,
    hex]
  exact ⟨fun hp => ⟨hp.1, hp.2⟩, fun hp => ⟨hp.included, hp.notExcluded⟩⟩

end Files

/-! ## 2. Components -/

namespace Path

/-- A piece that is not the last one stands before a slash, at the start or after a slash. -/
theorem exists_around_piece {piece s name : List UInt8}
    (h : name ∈ (piecesFrom piece s).dropLast) :
    ∃ u v, piece.reverse ++ s = u ++ name ++ slash :: v ∧ (u = [] ∨ ∃ w, u = w ++ [slash]) := by
  induction s generalizing piece with
  | nil => cases h
  | cons b s ih =>
    rw [piecesFrom] at h
    split at h
    · next hb =>
      rw [List.dropLast_cons_of_ne_nil (piecesFrom_ne_nil [] s)] at h
      rcases List.mem_cons.mp h with rfl | h
      · exact ⟨[], s, by simp [hb], .inl rfl⟩
      · obtain ⟨u, v, hs, hu⟩ := ih h
        rw [List.reverse_nil, List.nil_append] at hs
        refine ⟨piece.reverse ++ slash :: u, v, by simp [hb, hs], .inr ?_⟩
        rcases hu with rfl | ⟨w, rfl⟩
        · exact ⟨piece.reverse, rfl⟩
        · exact ⟨piece.reverse ++ slash :: w, by simp⟩
    · obtain ⟨u, v, hs, hu⟩ := ih h
      exact ⟨u, v, by simpa using hs, hu⟩

theorem eq_of_component? {first : Bool} {piece name : List UInt8}
    (h : component? first piece = some (.name name)) : piece = name := by
  unfold component? at h
  split at h
  · cases h
  · split at h
    · cases first <;> cases h
    · split at h
      · cases h
      · exact Component.name.inj (Option.some.inj h)

theorem mem_dropLast_of_filterMap {ps : List (List UInt8)} {name : List UInt8}
    (h : .name name ∈ (ps.filterMap (component? false)).dropLast) : name ∈ ps.dropLast := by
  rcases List.eq_nil_or_concat ps with rfl | ⟨ps, last, rfl⟩
  · cases h
  · rw [List.concat_eq_append, List.dropLast_concat]
    rw [List.concat_eq_append, List.filterMap_append] at h
    have hm : .name name ∈ ps.filterMap (component? false) := by
      cases hc : component? false last with
      | none =>
        rw [List.filterMap_cons_none hc, List.filterMap_nil, List.append_nil] at h
        exact List.mem_of_mem_dropLast h
      | some c => rwa [List.filterMap_cons_some hc, List.filterMap_nil, List.dropLast_concat] at h
    obtain ⟨piece, hp, hc⟩ := List.mem_filterMap.mp hm
    exact eq_of_component? hc ▸ hp

/-- The first component of a path is the root, or what the first piece stands for. -/
theorem components_of_pieces {p : Path} {piece : List UInt8} {ps : List (List UInt8)}
    (hp : p.pieces = piece :: ps) : ∃ c? : Option Component,
      p.components = c?.toList ++ ps.filterMap (component? false) ∧
        (c? = some .root ∨ c? = component? true piece) := by
  rw [components, hp]
  cases p.isAbsolute with
  | true => exact ⟨some .root, rfl, .inl rfl⟩
  | false => exact ⟨component? true piece, rfl, .inr rfl⟩

/-- A name that is a component of a path, but not the last one, is a piece and not the last one. -/
theorem mem_dropLast_pieces {p : Path} {name : List UInt8}
    (h : .name name ∈ p.components.dropLast) : name ∈ p.pieces.dropLast := by
  obtain ⟨piece, ps, hp⟩ := List.exists_cons_of_ne_nil (piecesFrom_ne_nil [] p.bytes)
  obtain ⟨c?, hc, hfirst⟩ := components_of_pieces hp
  have hname : c? = some (.name name) → piece = name := by
    rintro rfl
    rcases hfirst with hroot | hpiece
    · cases hroot
    · exact eq_of_component? hpiece.symm
  rw [hc] at h
  rw [pieces, hp]
  cases c? with
  | none =>
    have hm := mem_dropLast_of_filterMap h
    rw [List.dropLast_cons_of_ne_nil (by rintro rfl; cases hm)]
    exact List.mem_cons_of_mem _ hm
  | some c =>
    have hne : ps.filterMap (component? false) ≠ [] := by
      intro hn
      rw [hn] at h
      cases h
    have hps : ps ≠ [] := by
      rintro rfl
      exact hne rfl
    rw [Option.toList_some, List.singleton_append, List.dropLast_cons_of_ne_nil hne,
      List.mem_cons] at h
    rw [List.dropLast_cons_of_ne_nil hps]
    rcases h with rfl | h
    · exact hname rfl ▸ List.mem_cons_self
    · exact List.mem_cons_of_mem _ (mem_dropLast_of_filterMap h)

end Path

/-! ## 3. The store of a repository -/

namespace Glob

theorem byteChars_append (s s' : List UInt8) : byteChars (s ++ s') = byteChars s ++ byteChars s' :=
  List.map_append

/-- A character that is a byte stands for itself. -/
theorem cons_mem_partsLanguage {d : Dialect} {c : Char} {ps : List Part} {w : List Char}
    (hc : byteChars (String.utf8EncodeChar c) = [c]) (h : w ∈ partsLanguage d ps) :
    c :: w ∈ partsLanguage d (.char c :: ps) :=
  Language.append_mem_mul (a := [c]) hc.symm h

end Glob

namespace Files

/-- The pattern for the store matches where the name of the store stands before a slash. -/
theorem store_matches {u v : List UInt8} (hp : p.bytes = u ++ nameOf ".git" ++ Path.slash :: v)
    (hu : u = [] ∨ ∃ w, u = w ++ [Path.slash]) : Glob.Matches storePattern p := by
  refine ⟨_, parse_storePattern, ?_⟩
  have hw : Glob.byteChars p.bytes =
      Glob.byteChars u ++ '.' :: 'g' :: 'i' :: 't' :: '/' :: Glob.byteChars v := by
    rw [hp, Glob.byteChars_append, Glob.byteChars_append, List.append_assoc]
    rfl
  have hlead : Glob.byteChars u ∈ Glob.Part.language {} .leading := by
    rcases hu with rfl | ⟨w, rfl⟩
    · exact .inl rfl
    · exact .inr ⟨Glob.byteChars w, Glob.byteChars_append w [Path.slash]⟩
  have htrail : '/' :: Glob.byteChars v ∈ Glob.partsLanguage {} [.trailing] :=
    Language.mem_mul.mpr ⟨_, ⟨_, rfl⟩, [], rfl, List.append_nil _⟩
  have hname : '.' :: 'g' :: 'i' :: 't' :: '/' :: Glob.byteChars v ∈
      Glob.partsLanguage {} [.char '.', .char 'g', .char 'i', .char 't', .trailing] := by
    refine Glob.cons_mem_partsLanguage rfl ?_
    refine Glob.cons_mem_partsLanguage rfl ?_
    refine Glob.cons_mem_partsLanguage rfl ?_
    exact Glob.cons_mem_partsLanguage rfl htrail
  rw [hw]
  exact Language.append_mem_mul hlead hname

/-- No path that is admitted lies within a store. -/
theorem store_not_mem_of_admits (hs : Selection.ofPatterns includes excludes = .ok s)
    (ha : s.admits p = true) : .name (nameOf ".git") ∉ p.components.dropLast := by
  intro hm
  obtain ⟨u, v, hp, hu⟩ := Path.exists_around_piece (Path.mem_dropLast_pieces hm)
  exact ((admits_iff hs).mp ha).notExcluded storePattern (by simp) (store_matches hp hu)

/-! ## 4. Walks -/

/-- What a walk visits is marked if and only if it is a regular file. -/
theorem mark_iff {vs : List (Path × Bool)} (hv : visits t root = .ok vs) {q : Path} {b : Bool}
    (hm : (q, b) ∈ vs) : b = true ↔ IsFileFrom t root q := by
  rcases visits_eq_ok_iff.mp hv with ⟨hr, rfl⟩ | ⟨hr, s, hs, rfl⟩
  · obtain ⟨rfl, rfl⟩ := Prod.mk.inj (List.mem_singleton.mp hm)
    exact ⟨nofun, fun h => absurd (h.1.symm.trans hr) (by decide)⟩
  · obtain ⟨u, hl, rfl⟩ : ∃ u, Leads root s q u ∧ b = u.node.isFile := leads_of_visit s.node hm
    rw [IsFileFrom, FileTree.hasFile, hl.spot hs]
    exact (and_iff_right hr).symm

theorem walkAll_eq_ok_iff {es : List WalkEntry} : walkAll t root s = .ok es ↔
    ∃ vs, visits t root = .ok vs ∧ es = vs.map fun v => ⟨v.1, s.status v⟩ := by
  unfold walkAll
  cases visits t root with
  | error e => simp
  | ok vs => simp [eq_comm]

theorem status_iff (hs : Selection.ofPatterns includes excludes = .ok s) {es : List WalkEntry}
    (h : walkAll t root s = .ok es) {e : WalkEntry} (he : e ∈ es) :
    e.status = .file ↔ IsFileFrom t root e.path ∧ Picks includes excludes e.path := by
  obtain ⟨vs, hv, rfl⟩ := walkAll_eq_ok_iff.mp h
  obtain ⟨⟨q, b⟩, hm, rfl⟩ := List.mem_map.mp he
  rw [← beq_iff_eq, status_eq_file_iff, mark_iff hv hm, admits_iff hs]

theorem admits_of_mem {files : List Path} (h : walk t root s = .ok files) (hp : p ∈ files) :
    s.admits p = true := by
  obtain ⟨vs, -, rfl⟩ := walk_eq_ok_iff.mp h
  obtain ⟨v, hm, rfl⟩ := List.mem_map.mp hp
  exact (status_eq_file_iff.mp (List.mem_filter.mp hm).2).2

/-- A walk depends on the patterns only by what they select. -/
theorem walkAll_congr (h : ∀ p, s.admits p = s'.admits p) :
    walkAll t root s = walkAll t root s' := by
  have hst : s.status = s'.status := by
    funext v
    rw [Selection.status, Selection.status, h]
  rw [walkAll, walkAll, hst]

/-- A walk with patterns that select less yields no more. -/
theorem walk_yieldsNoMore (h : ∀ p, s.admits p = true → s'.admits p = true) :
    YieldsNoMore (walk t root s) (walk t root s') := by
  cases hv : visits t root with
  | error e =>
    have hw (s : Selection) : walk t root s = .error (.unreadable root e) := by
      rw [walk, walkAll, hv]
      rfl
    rw [hw, hw]
    exact .failed _
  | ok vs =>
    rw [walk_eq_ok_iff.mpr ⟨vs, hv, rfl⟩, walk_eq_ok_iff.mpr ⟨vs, hv, rfl⟩]
    refine .yielded (.map _ (List.monotone_filter_right vs fun v hst => ?_))
    obtain ⟨hb, ha⟩ := status_eq_file_iff.mp hst
    exact status_eq_file_iff.mpr ⟨hb, h v.1 ha⟩

/-- More patterns to include select more, unless they are the first ones, and so do fewer patterns
to exclude. -/
theorem Picks.of_subset {includes' excludes' : List String} (h : Picks includes excludes p)
    (hi : includes ⊆ includes') (hfirst : includes = [] → includes' = [])
    (he : excludes' ⊆ excludes) : Picks includes' excludes' p := by
  refine ⟨?_, fun pattern hm => h.notExcluded pattern ?_⟩
  · rcases h.included with hnil | ⟨pattern, hm, hp⟩
    · exact .inl (hfirst hnil)
    · exact .inr ⟨pattern, hi hm, hp⟩
  · rcases List.mem_append.mp hm with hm | hm
    · exact List.mem_append_left _ (he hm)
    · exact List.mem_append_right _ hm

theorem walk_of_subset {includes' excludes' : List String}
    (hs : Selection.ofPatterns includes excludes = .ok s)
    (hs' : Selection.ofPatterns includes' excludes' = .ok s') (hi : includes ⊆ includes')
    (hfirst : includes = [] → includes' = []) (he : excludes' ⊆ excludes) :
    YieldsNoMore (walk t root s) (walk t root s') :=
  walk_yieldsNoMore fun _ ha =>
    (admits_iff hs').mpr (((admits_iff hs).mp ha).of_subset hi hfirst he)

/-- Neither the order nor the repetition of patterns shows in a walk. -/
theorem walkAll_of_same {includes' excludes' : List String}
    (hs : Selection.ofPatterns includes excludes = .ok s)
    (hi : ∀ pattern, pattern ∈ includes' ↔ pattern ∈ includes)
    (he : ∀ pattern, pattern ∈ excludes' ↔ pattern ∈ excludes) :
    ∃ s', Selection.ofPatterns includes' excludes' = .ok s' ∧
      walkAll t root s' = walkAll t root s := by
  have hv' : ∀ pattern ∈ includes' ++ excludes', ∃ g, Glob.ofText {} pattern = .ok g := by
    intro pattern hm
    rw [List.mem_append, hi, he, ← List.mem_append] at hm
    exact exists_ofPatterns_iff.mp ⟨s, hs⟩ pattern hm
  obtain ⟨s', hs'⟩ := exists_ofPatterns_iff.mpr hv'
  have hfirst : includes' = [] ↔ includes = [] := by
    rw [List.eq_nil_iff_forall_not_mem, List.eq_nil_iff_forall_not_mem]
    simp only [hi]
  refine ⟨s', hs', walkAll_congr fun p => Bool.eq_iff_iff.mpr ?_⟩
  rw [admits_iff hs', admits_iff hs]
  constructor
  · intro h
    exact h.of_subset (fun q hq => (hi q).mp hq) hfirst.mp fun q hq => (he q).mpr hq
  · intro h
    exact h.of_subset (fun q hq => (hi q).mpr hq) hfirst.mpr fun q hq => (he q).mp hq

/-! ## 5. What a walk selects -/

/-- How what a walk yields depends on the patterns that the selection is read from. The root is
meant relative to the working folder and not to lead above it; one that leads outside is not there
in any tree. -/
structure WalkSelects (t : FileTree) (root : Path) (includes excludes : List String)
    (s : Selection) : Prop where
  /-- There is an entry for each path that is visited, whatever the patterns. -/
  entries : ∀ vs, visits t root = .ok vs →
    ∃ es, walkAll t root s = .ok es ∧ es.map (·.path) = vs.map (·.1)
  /-- The files are the entries with that status, in their order. -/
  files : walk t root s =
    (walkAll t root s).map fun es => (es.filter (·.status == .file)).map (·.path)
  /-- These are the regular files that the patterns select. -/
  status : ∀ es, walkAll t root s = .ok es → ∀ e ∈ es,
    (e.status = .file ↔ IsFileFrom t root e.path ∧ Picks includes excludes e.path)
  /-- No path within the store of a repository is admitted, wherever it leads. -/
  outsideStore : ∀ p, s.admits p = true → .name (nameOf ".git") ∉ p.components.dropLast
  /-- So no file that is yielded lies there. -/
  filesOutsideStore : ∀ files, walk t root s = .ok files →
    ∀ p ∈ files, .name (nameOf ".git") ∉ p.components.dropLast
  /-- The same patterns in another order or with other repeats select the same. -/
  same : ∀ includes' excludes', (∀ pattern, pattern ∈ includes' ↔ pattern ∈ includes) →
    (∀ pattern, pattern ∈ excludes' ↔ pattern ∈ excludes) →
    ∃ s', Selection.ofPatterns includes' excludes' = .ok s' ∧
      walkAll t root s' = walkAll t root s ∧ walk t root s' = walk t root s
  /-- More patterns to exclude only remove files. -/
  moreExcludes : ∀ excludes' s', excludes ⊆ excludes' →
    Selection.ofPatterns includes excludes' = .ok s' →
    YieldsNoMore (walk t root s') (walk t root s)
  /-- More patterns to include, behind the first one, only add files. -/
  moreIncludes : includes ≠ [] → ∀ includes' s', includes ⊆ includes' →
    Selection.ofPatterns includes' excludes = .ok s' →
    YieldsNoMore (walk t root s) (walk t root s')

theorem walk_selects (hv : ∀ pattern ∈ includes ++ excludes, ∃ g, Glob.ofText {} pattern = .ok g)
    (root : Path) : ∃ s, Selection.ofPatterns includes excludes = .ok s ∧
      WalkSelects t root includes excludes s := by
  obtain ⟨s, hs⟩ := exists_ofPatterns_iff.mpr hv
  refine ⟨s, hs, ?_⟩
  constructor
  case entries =>
    intro vs hv
    refine ⟨_, walkAll_eq_ok_iff.mpr ⟨vs, hv, rfl⟩, ?_⟩
    rw [List.map_map]
    rfl
  case files => rfl
  case status =>
    intro es h e he
    exact status_iff hs h he
  case outsideStore =>
    intro p ha
    exact store_not_mem_of_admits hs ha
  case filesOutsideStore =>
    intro files h p hp
    exact store_not_mem_of_admits hs (admits_of_mem h hp)
  case same =>
    intro includes' excludes' hi he
    obtain ⟨s', hs', hw⟩ := walkAll_of_same hs hi he
    exact ⟨s', hs', hw, by rw [walk, walk, hw]⟩
  case moreExcludes =>
    intro excludes' s' he hs'
    exact walk_of_subset hs' hs (List.Subset.refl _) id he
  case moreIncludes =>
    intro hne includes' s' hi hs'
    exact walk_of_subset hs hs' hi (absurd · hne) (List.Subset.refl _)

/-- A repository, with a file in a folder that has the name of a store for itself. -/
def repositoryTree : FileTree :=
  { entries := [(nameOf ".git", .folder [(nameOf "a.html", .file [])]),
      (nameOf "site", .folder [(nameOf ".git", .file []), (nameOf "a.html", .file []),
        (nameOf "b.html", .file [])])] }

/-- From the dot, the file in the store is not selected, while the one that is called like a store
is, next to those that the patterns name. -/
theorem walk_selects_repository :
    (∀ pattern ∈ ["**/*.html", "**/.git"] ++ ["**/b.*"],
      ∃ g, Glob.ofText {} pattern = .ok g) ∧
    ∃ s, Selection.ofPatterns ["**/*.html", "**/.git"] ["**/b.*"] = .ok s ∧
      (walk repositoryTree (.ofString ".") s).toOption =
        some [.ofString "./site/.git", .ofString "./site/a.html"] ∧
      WalkSelects repositoryTree (.ofString ".") ["**/*.html", "**/.git"] ["**/b.*"] s := by
  have hv : ∀ pattern ∈ ["**/*.html", "**/.git"] ++ ["**/b.*"],
      ∃ g, Glob.ofText {} pattern = .ok g := by
    simp only [List.cons_append, List.nil_append, List.forall_mem_cons, List.not_mem_nil,
      false_imp_iff, implies_true, and_true]
    exact ⟨⟨_, rfl⟩, ⟨_, rfl⟩, _, rfl⟩
  obtain ⟨s, hs, h⟩ := walk_selects hv (.ofString ".")
  have hw : ((Selection.ofPatterns ["**/*.html", "**/.git"] ["**/b.*"]).toOption.bind fun s =>
      (walk repositoryTree (.ofString ".") s).toOption) =
        some [.ofString "./site/.git", .ofString "./site/a.html"] := by
    decide +kernel
  rw [hs] at hw
  exact ⟨hv, s, hs, hw, h⟩

end Files

end MarkupLint
