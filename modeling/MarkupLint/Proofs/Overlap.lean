import Mathlib
import MarkupLint.Proofs.Discovery

/-!
# Overlapping roots

Several roots may reach one file, and discovery drops what is the same path as the one before. Paths
that are the same lead to one place, but one place has several paths: a dot counts at the start of a
path, and two dots lead back up. A file is listed once exactly if all the roots that select it spell
it alike: whenever two of them meet in a file, the lower one is spelled as the upper one with the
names that lead down put behind it. Without two dots, only a dot at the start can make a difference.

Results:
1. `filterMap_piece?_components`: pieces and components.
2. `spot_of_components`, `components_of_spot`: places and components.
3. `place_of_yields`: the place and the components of a file that a root yields.
4. `nodup_place_iff`, `components_eq_iff_spelledFrom`, `discover_once_iff`: files that are listed
   once, and `discover_lists_twice`: one that is not.
-/

namespace MarkupLint

open Files

namespace Path

/-! ## 1. Pieces and components -/

/-- The path starts with a dot. -/
def isDotted (p : Path) : Bool := p.components.head? == some .here

/-- The piece that a component stands for, if it leads elsewhere. -/
def Component.piece? : Component → Option (List UInt8)
  | .root => none
  | .here => none
  | .up => some dotDot
  | .name s => some s

/-- The piece leads elsewhere. -/
def leads (piece : List UInt8) : Bool := piece != [] && piece != dot

theorem components_of_relative {p : Path} (h : p.isAbsolute = false) :
    ∃ piece ps, p.pieces = piece :: ps ∧
      p.components = (component? true piece).toList ++ ps.filterMap (component? false) := by
  obtain ⟨piece, ps, hp⟩ := List.exists_cons_of_ne_nil (piecesFrom_ne_nil [] p.bytes)
  refine ⟨piece, ps, hp, ?_⟩
  rw [components, pieces, hp]
  simp only [h, Bool.false_eq_true, if_false]

theorem component?_bind_piece? (first : Bool) (piece : List UInt8) :
    (component? first piece).bind Component.piece? = if leads piece then some piece else none := by
  by_cases h1 : piece = []
  · simp [component?, leads, h1]
  by_cases h2 : piece = dot
  · cases first <;> simp [component?, leads, h2, Component.piece?, dot]
  by_cases h3 : piece = dotDot
  · simp [component?, leads, h3, Component.piece?, dot, dotDot]
  · simp [component?, leads, h1, h2, h3, Component.piece?]

/-- The pieces of a relative path that lead elsewhere are told by its components. -/
theorem filterMap_piece?_components {p : Path} (h : p.isAbsolute = false) :
    p.components.filterMap Component.piece? = p.pieces.filter leads := by
  have hone (piece : List UInt8) :
      (component? true piece).toList.filterMap Component.piece? = [piece].filter leads := by
    have hb := component?_bind_piece? true piece
    cases hc : component? true piece with
    | none =>
      rw [hc] at hb
      cases hl : leads piece <;> simp [hl] at hb ⊢
    | some c =>
      rw [hc, Option.bind_some] at hb
      cases hl : leads piece <;> simp [hb, hl]
  have hrest (ps : List (List UInt8)) : (ps.filterMap (component? false)).filterMap
      Component.piece? = ps.filter leads := by
    rw [List.filterMap_filterMap, ← List.filterMap_eq_filter]
    congr 1
    funext piece
    rw [component?_bind_piece?]
    simp [Option.guard]
  obtain ⟨piece, ps, hp, hc⟩ := components_of_relative h
  rw [hc, hp, List.filterMap_append, hone, hrest, ← List.filter_append, List.singleton_append]

theorem up_mem_components {p : Path} (h : p.isAbsolute = false) (hd : dotDot ∈ p.pieces) :
    .up ∈ p.components := by
  have hup (first : Bool) : component? first dotDot = some .up := rfl
  obtain ⟨piece, ps, hp, hc⟩ := components_of_relative h
  rw [hp] at hd
  rw [hc]
  rcases List.mem_cons.mp hd with rfl | hd
  · rw [hup]
    exact List.mem_cons_self
  · exact List.mem_append_right _ (List.mem_filterMap.mpr ⟨dotDot, hd, hup false⟩)

theorem component?_eq_some {first : Bool} {piece : List UInt8} {c : Component}
    (h : component? first piece = some c) :
    (first = true ∧ c = .here) ∨ c = .up ∨ ∃ s, c = .name s := by
  unfold component? at h
  split at h
  · cases h
  · split at h
    · cases first with
      | false => cases h
      | true => exact .inl ⟨rfl, (Option.some.inj h).symm⟩
    · split at h
      · exact .inr (.inl (Option.some.inj h).symm)
      · exact .inr (.inr ⟨piece, (Option.some.inj h).symm⟩)

theorem exists_names {ps : List (List UInt8)} (h : .up ∉ ps.filterMap (component? false)) :
    ∃ names : List (List UInt8), ps.filterMap (component? false) = names.map .name := by
  induction ps with
  | nil => exact ⟨[], rfl⟩
  | cons piece ps ih =>
    cases hp : component? false piece with
    | none =>
      rw [List.filterMap_cons_none hp] at h ⊢
      exact ih h
    | some c =>
      rw [List.filterMap_cons_some hp, List.mem_cons, not_or] at h
      obtain ⟨names, hn⟩ := ih h.2
      rcases component?_eq_some hp with ⟨hf, -⟩ | rfl | ⟨s, rfl⟩
      · cases hf
      · exact absurd rfl h.1
      · exact ⟨s :: names, by rw [List.filterMap_cons_some hp, hn, List.map_cons]⟩

theorem filterMap_piece?_names (names : List (List UInt8)) :
    (names.map Component.name).filterMap Component.piece? = names := by
  rw [List.filterMap_map]
  exact List.filterMap_some

/-- A relative path without two dots is a dot, perhaps, and names. -/
theorem components_of_not_up {p : Path} (h : p.isAbsolute = false) (hup : .up ∉ p.components) :
    p.components = (if p.isDotted then [.here] else []) ++
      (p.components.filterMap Component.piece?).map .name := by
  have hnames (names : List (List UInt8)) (hc : p.components = names.map .name) :
      p.components = (if p.isDotted then [.here] else []) ++
        (p.components.filterMap Component.piece?).map .name := by
    have hd : p.isDotted = false := by
      rw [isDotted, hc]
      cases names <;> rfl
    rw [hd, hc, filterMap_piece?_names]
    rfl
  obtain ⟨piece, ps, -, hc⟩ := components_of_relative h
  rw [hc, List.mem_append, not_or] at hup
  obtain ⟨names, hn⟩ := exists_names hup.2
  rw [hn] at hc
  cases hp : component? true piece with
  | none =>
    rw [hp] at hc
    exact hnames names hc
  | some c =>
    rw [hp] at hc hup
    rcases component?_eq_some hp with ⟨-, rfl⟩ | rfl | ⟨s, rfl⟩
    · have hd : p.isDotted = true := by
        rw [isDotted, hc]
        rfl
      have hh : Component.piece? .here = none := rfl
      rw [hd, hc, Option.toList_some, List.singleton_append, List.filterMap_cons_none hh,
        filterMap_piece?_names]
      rfl
    · exact absurd (List.mem_singleton_self _) hup.1
    · exact hnames (s :: names) hc

end Path

namespace Files

/-! ## 2. Places and components -/

/-- Only the pieces that lead elsewhere count. -/
theorem Spot.follow_filter {s u : Spot} {ps : List Name} (h : s.follow ps = .ok u) :
    s.follow (ps.filter Path.leads) = .ok u := by
  induction ps generalizing s with
  | nil => exact h
  | cons piece ps ih =>
    obtain ⟨v, hv, h⟩ := Spot.follow_cons_eq_ok_iff.mp h
    rw [List.filter_cons]
    cases hv with
    | stay hstay =>
      have hl : Path.leads piece = false := by
        rcases hstay with rfl | rfl <;> rfl
      rw [hl]
      exact ih h
    | up =>
      have hl : Path.leads Path.dotDot = true := rfl
      rw [hl]
      exact Spot.follow_cons_eq_ok_iff.mpr ⟨_, .up, ih h⟩
    | down h1 h2 h3 hc =>
      have hl : Path.leads piece = true := by simp [Path.leads, h1, h2]
      rw [hl]
      exact Spot.follow_cons_eq_ok_iff.mpr ⟨_, .down h1 h2 h3 hc, ih h⟩

variable {t : FileTree} {p q root : Path} {s u : Spot}

theorem follow_components (h : t.spot p = .ok s) :
    t.top.follow (p.components.filterMap Path.Component.piece?) = .ok s := by
  obtain ⟨-, ha, hf⟩ := spot_eq_ok h
  rw [Path.filterMap_piece?_components ha]
  exact Spot.follow_filter hf

/-- Paths that are the same lead to the same spot, if they lead anywhere. -/
theorem spot_of_components (hp : t.spot p = .ok s) (hq : t.spot q = .ok u)
    (h : p.components = q.components) : s = u := by
  have hs := follow_components hp
  rw [h, follow_components hq] at hs
  exact (Except.ok.inj hs).symm

/-- The place of a path that does not lead upwards is told by the names in it. -/
theorem names_of_follow {ps : List Name}
    (hps : ∀ piece ∈ ps, Path.leads piece = true ∧ piece ≠ Path.dotDot)
    (h : s.follow ps = .ok u) : u.names = s.names ++ ps := by
  induction ps generalizing s with
  | nil =>
    obtain rfl := Except.ok.inj h
    simp
  | cons piece ps ih =>
    obtain ⟨⟨hl, hd⟩, hps⟩ := List.forall_mem_cons.mp hps
    obtain ⟨v, hv, h⟩ := Spot.follow_cons_eq_ok_iff.mp h
    rw [ih hps h]
    cases hv with
    | stay hstay => rcases hstay with rfl | rfl <;> cases hl
    | up => exact absurd rfl hd
    | down => simp [Spot.names]

/-- A path without two dots is spelled as its place, perhaps with a dot before it. -/
theorem components_of_spot (h : t.spot p = .ok s) (hup : .up ∉ p.components) :
    p.components = (if p.isDotted then [.here] else []) ++ s.names.map .name := by
  obtain ⟨-, ha, -⟩ := spot_eq_ok h
  have hf := follow_components h
  have hps : ∀ piece ∈ p.components.filterMap Path.Component.piece?,
      Path.leads piece = true ∧ piece ≠ Path.dotDot := by
    rw [Path.filterMap_piece?_components ha]
    intro piece hp
    obtain ⟨hp, hl⟩ := List.mem_filter.mp hp
    refine ⟨hl, ?_⟩
    rintro rfl
    exact hup (Path.up_mem_components ha hp)
  rw [names_of_follow hps hf, Spot.names_top, List.nil_append]
  exact Path.components_of_not_up ha hup

/-! ## 3. What a root yields -/

variable {includes excludes : List String}

/-- A file that a root yields lies below the root. -/
theorem leads_of_yields (hy : Yields t includes excludes root q) :
    ∃ s u, t.spot root = .ok s ∧ Leads root s q u ∧ u.node.isFile = true := by
  obtain ⟨_, vs, -, hv, hm, -⟩ := yields_iff.mp hy
  rcases visits_eq_ok_iff.mp hv with ⟨-, rfl⟩ | ⟨-, s, hs, rfl⟩
  · simp at hm
  · obtain ⟨u, hl, hb⟩ := leads_of_visit s.node hm
    exact ⟨s, u, hs, hl, hb.symm⟩

/-- The names on the way down from a root are put behind its place and behind its components. -/
theorem place_of_yields (hy : Yields t includes excludes root q) :
    ∃ above names, t.place? root = some above ∧ t.place? q = some (above ++ names) ∧
      q.components = root.components ++ names.map .name := by
  obtain ⟨s, u, hs, hl, -⟩ := leads_of_yields hy
  obtain ⟨names, hn, hc⟩ := hl.components hs
  refine ⟨s.names, names, ?_, ?_, hc⟩
  · rw [FileTree.place?, hs]
    rfl
  · rw [FileTree.place?, hl.spot hs, ← hn]
    rfl

/-! ## 4. Files that are listed once -/

/-- The roots both select some file on disk. -/
def Meet (t : FileTree) (includes excludes : List String) (r r' : Path) : Prop :=
  ∃ p q, Yields t includes excludes r p ∧ Yields t includes excludes r' q ∧
    t.place? p = t.place? q

/-- The second root, if it lies at or below the first one, is spelled as the first one with the
names behind it that lead down. -/
def SpelledFrom (t : FileTree) (r r' : Path) : Prop :=
  ∀ above names, t.place? r = some above → t.place? r' = some (above ++ names) →
    r'.components = r.components ++ names.map .name

theorem place?_eq_some_iff {names : List Name} :
    t.place? p = some names ↔ ∃ s, t.spot p = .ok s ∧ s.names = names := by
  rw [FileTree.place?]
  cases t.spot p with
  | error e => simp [Except.toOption]
  | ok s => simp [Except.toOption]

theorem place?_of_components {place place' : List Name} (hp : t.place? p = some place)
    (hq : t.place? q = some place') (h : p.components = q.components) : place = place' := by
  obtain ⟨s, hs, rfl⟩ := place?_eq_some_iff.mp hp
  obtain ⟨u, hu, rfl⟩ := place?_eq_some_iff.mp hq
  rw [spot_of_components hs hu h]

variable {roots files : List Path}

/-- Each file is listed once if and only if the paths by which the roots yield it are the same. -/
theorem nodup_place_iff (h : discover t includes excludes roots = .ok files) :
    (files.map t.place?).Nodup ↔ ∀ r ∈ roots, ∀ r' ∈ roots, ∀ p q,
      Yields t includes excludes r p → Yields t includes excludes r' q →
        t.place? p = t.place? q → p.components = q.components := by
  -- what a root yields is listed under the same components, and so at the same place
  have hlisted {r p : Path} (hr : r ∈ roots) (hy : Yields t includes excludes r p) :
      ∃ p' ∈ files, p'.components = p.components ∧ t.place? p' = t.place? p := by
    obtain ⟨p', hp', hc⟩ :=
      List.mem_map.mp ((mem_components_iff h).mpr ⟨r, hr, p, hy, rfl⟩)
    obtain ⟨r', -, hy'⟩ := yields_of_mem_discover h hp'
    obtain ⟨_, _, -, hpl, -⟩ := place_of_yields hy
    obtain ⟨_, _, -, hpl', -⟩ := place_of_yields hy'
    exact ⟨p', hp', hc, by rw [hpl, hpl', place?_of_components hpl' hpl hc]⟩
  constructor
  · intro hn r hr r' hr' p q hp hq hpq
    obtain ⟨p', hp', hc, hpl⟩ := hlisted hr hp
    obtain ⟨q', hq', hc', hpl'⟩ := hlisted hr' hq
    have he : p' = q' := List.inj_on_of_nodup_map hn hp' hq' (by rw [hpl, hpl', hpq])
    rw [← hc, ← hc', he]
  · intro hall
    rw [List.Nodup, List.pairwise_map]
    have hd := List.pairwise_map.mp (nodup_components (discover_ascending h))
    refine hd.imp_of_mem ?_
    intro p q hp hq hne hpl
    obtain ⟨r, hr, hy⟩ := yields_of_mem_discover h hp
    obtain ⟨r', hr', hy'⟩ := yields_of_mem_discover h hq
    exact hne (hall r hr r' hr' p q hy hy' hpl)

/-- A file is spelled alike from two roots, one below the other, if and only if the roots are. -/
theorem components_eq_iff {r r' : Path} {above names below below' : List Name}
    (hp : p.components = r.components ++ below.map .name)
    (hq : q.components = r'.components ++ below'.map .name)
    (hpl : above ++ below = above ++ names ++ below') :
    p.components = q.components ↔ r'.components = r.components ++ names.map .name := by
  rw [List.append_assoc, List.append_cancel_left_eq] at hpl
  rw [hp, hq, hpl, List.map_append, ← List.append_assoc, List.append_cancel_right_eq, eq_comm]

theorem components_eq_iff_spelledFrom {r r' : Path} (hp : Yields t includes excludes r p)
    (hq : Yields t includes excludes r' q) (hpq : t.place? p = t.place? q) :
    p.components = q.components ↔ SpelledFrom t r r' ∧ SpelledFrom t r' r := by
  obtain ⟨above, below, hr, hpl, hc⟩ := place_of_yields hp
  obtain ⟨above', below', hr', hpl', hc'⟩ := place_of_yields hq
  have hsame : above ++ below = above' ++ below' :=
    Option.some.inj (hpl.symm.trans (hpq.trans hpl'))
  constructor
  · intro he
    constructor
    · intro top names htop hlow
      obtain rfl := Option.some.inj (hr.symm.trans htop)
      obtain rfl := Option.some.inj (hr'.symm.trans hlow)
      exact (components_eq_iff hc hc' hsame).mp he
    · intro top names htop hlow
      obtain rfl := Option.some.inj (hr'.symm.trans htop)
      obtain rfl := Option.some.inj (hr.symm.trans hlow)
      exact (components_eq_iff hc' hc hsame.symm).mp he.symm
  · -- both places begin the place of the file, so one begins the other
    rintro ⟨h, h'⟩
    rcases List.append_eq_append_iff.mp hsame with ⟨names, rfl, -⟩ | ⟨names, rfl, -⟩
    · exact (components_eq_iff hc hc' hsame).mpr (h above names hr hr')
    · exact ((components_eq_iff hc' hc hsame.symm).mpr (h' above' names hr' hr)).symm

/-- Without two dots, a root is spelled from one above it if both start with a dot or neither
does. -/
theorem isDotted_eq_iff {r r' : Path} (hup : .up ∉ r.components) (hup' : .up ∉ r'.components)
    {above names : List Name} (hr : t.place? r = some above)
    (hr' : t.place? r' = some (above ++ names)) :
    r.isDotted = r'.isDotted ↔ r'.components = r.components ++ names.map .name := by
  obtain ⟨s, hs, rfl⟩ := place?_eq_some_iff.mp hr
  obtain ⟨s', hs', hn⟩ := place?_eq_some_iff.mp hr'
  have hc := components_of_spot hs hup
  have hc' := components_of_spot hs' hup'
  rw [hn] at hc'
  rw [hc, hc', List.map_append, ← List.append_assoc, List.append_cancel_right_eq,
    List.append_cancel_right_eq]
  cases r.isDotted <;> cases r'.isDotted <;> simp

theorem meet_places {r r' : Path} (h : Meet t includes excludes r r') :
    ∃ above names, (t.place? r = some above ∧ t.place? r' = some (above ++ names)) ∨
      (t.place? r' = some above ∧ t.place? r = some (above ++ names)) := by
  obtain ⟨p, q, hp, hq, hpq⟩ := h
  obtain ⟨above, below, hr, hpl, -⟩ := place_of_yields hp
  obtain ⟨above', below', hr', hpl', -⟩ := place_of_yields hq
  have hsame : above ++ below = above' ++ below' :=
    Option.some.inj (hpl.symm.trans (hpq.trans hpl'))
  rcases List.append_eq_append_iff.mp hsame with ⟨names, rfl, -⟩ | ⟨names, rfl, -⟩
  · exact ⟨above, names, .inl ⟨hr, hr'⟩⟩
  · exact ⟨above', names, .inr ⟨hr', hr⟩⟩

/-- When two roots without two dots meet, they are spelled alike if both start with a dot or neither
does. -/
theorem spelledFrom_iff_dotted {r r' : Path} (hup : .up ∉ r.components)
    (hup' : .up ∉ r'.components) (h : Meet t includes excludes r r') :
    SpelledFrom t r r' ∧ SpelledFrom t r' r ↔ r.isDotted = r'.isDotted := by
  constructor
  · rintro ⟨hs, hs'⟩
    obtain ⟨above, names, ⟨hr, hr'⟩ | ⟨hr', hr⟩⟩ := meet_places h
    · exact (isDotted_eq_iff hup hup' hr hr').mpr (hs above names hr hr')
    · exact ((isDotted_eq_iff hup' hup hr' hr).mpr (hs' above names hr' hr)).symm
  · intro hd
    constructor
    · intro above names hr hr'
      exact (isDotted_eq_iff hup hup' hr hr').mp hd
    · intro above names hr' hr
      exact (isDotted_eq_iff hup' hup hr' hr).mp hd.symm

theorem nodup_place_iff_spelledFrom (h : discover t includes excludes roots = .ok files) :
    (files.map t.place?).Nodup ↔ ∀ r ∈ roots, ∀ r' ∈ roots,
      Meet t includes excludes r r' → SpelledFrom t r r' ∧ SpelledFrom t r' r := by
  rw [nodup_place_iff h]
  constructor
  · rintro hall r hr r' hr' ⟨p, q, hp, hq, hpq⟩
    exact (components_eq_iff_spelledFrom hp hq hpq).mp (hall r hr r' hr' p q hp hq hpq)
  · intro hall r hr r' hr' p q hp hq hpq
    exact (components_eq_iff_spelledFrom hp hq hpq).mpr (hall r hr r' hr' ⟨p, q, hp, hq, hpq⟩)

/-- Each file is listed once if and only if roots that meet in some file are spelled alike, which
for roots without two dots says that all that meet start with a dot or none does. -/
theorem discover_once_iff (h : discover t includes excludes roots = .ok files) :
    ((files.map t.place?).Nodup ↔ ∀ r ∈ roots, ∀ r' ∈ roots,
      Meet t includes excludes r r' → SpelledFrom t r r' ∧ SpelledFrom t r' r) ∧
    ((∀ root ∈ roots, .up ∉ root.components) →
      ((files.map t.place?).Nodup ↔ ∀ r ∈ roots, ∀ r' ∈ roots,
        Meet t includes excludes r r' → r.isDotted = r'.isDotted)) := by
  have hiff := nodup_place_iff_spelledFrom h
  refine ⟨hiff, fun hup => ?_⟩
  rw [hiff]
  constructor
  · intro hall r hr r' hr' hm
    exact (spelledFrom_iff_dotted (hup r hr) (hup r' hr') hm).mp (hall r hr r' hr' hm)
  · intro hall r hr r' hr' hm
    exact (spelledFrom_iff_dotted (hup r hr) (hup r' hr') hm).mpr (hall r hr r' hr' hm)

/-- A folder and one of the files in it are spelled alike, so the file is listed once. -/
theorem discover_once_iff_folder_and_file :
    discover folderOfTwo ["**/*.html"] [] [.ofString "a/x.html", .ofString "a"] =
      .ok [.ofString "a/x.html", .ofString "a/y.html"] ∧
    ([.ofString "a/x.html", .ofString "a/y.html"].map folderOfTwo.place?).Nodup := by
  have hd : dedup [.ofString "a/x.html", .ofString "a/x.html", .ofString "a/y.html"] =
      [.ofString "a/x.html", .ofString "a/y.html"] := by
    rw [dedup, if_pos (by decide +kernel), dedup, if_neg (by decide +kernel), dedup]
  have h : discover folderOfTwo ["**/*.html"] [] [.ofString "a/x.html", .ofString "a"] =
      .ok [.ofString "a/x.html", .ofString "a/y.html"] :=
    discover_of_ascending (by decide +kernel) (by decide +kernel) hd
  have hup : ∀ root ∈ [Path.ofString "a/x.html", .ofString "a"], .up ∉ root.components := by
    decide +kernel
  have hdot : ∀ r ∈ [Path.ofString "a/x.html", .ofString "a"],
      ∀ r' ∈ [Path.ofString "a/x.html", .ofString "a"], r.isDotted = r'.isDotted := by
    decide +kernel
  exact ⟨h, ((discover_once_iff h).2 hup).mpr fun r hr r' hr' _ => hdot r hr r' hr'⟩

/-- The file is listed twice when the folder is reached with a dot and the file without. -/
theorem discover_lists_twice :
    discover folderOfTwo ["**/*.html"] [] [.ofString ".", .ofString "a/x.html"] =
      .ok [.ofString "./a/x.html", .ofString "./a/y.html", .ofString "a/x.html"] ∧
    folderOfTwo.place? (.ofString "./a/x.html") = folderOfTwo.place? (.ofString "a/x.html") ∧
    ¬ ([.ofString "./a/x.html", .ofString "./a/y.html", .ofString "a/x.html"].map
      folderOfTwo.place?).Nodup := by
  have hd : dedup [.ofString "./a/x.html", .ofString "./a/y.html", .ofString "a/x.html"] =
      [.ofString "./a/x.html", .ofString "./a/y.html", .ofString "a/x.html"] := by
    rw [dedup, if_neg (by decide +kernel), dedup, if_neg (by decide +kernel), dedup]
  refine ⟨discover_of_ascending (by decide +kernel) (by decide +kernel) hd, ?_, ?_⟩
  · decide +kernel
  · decide +kernel

end Files

end MarkupLint
