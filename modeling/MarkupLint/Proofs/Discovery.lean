import Mathlib
import MarkupLint.Files.Discovery
import MarkupLint.Proofs.Enumeration

/-!
# What discovery finds

The files that the walks from several roots select are sorted, and what is the same as the file
before it is dropped. Files that are the same stand next to each other after the sorting, since the
order of paths is one of their components; so the list that remains is in strictly ascending order,
and such a list is determined by the components that occur in it. Neither the order nor the
repetition of roots shows in it, nor does the order in which folders enumerate their entries.

Results:
1. `Path.same_iff`, `Path.lt`: the order of paths.
2. `dedup_ascending`, `dedup_subset`, `exists_mem_dedup`, `ascending_ext`: sorted lists without
   repeats.
3. `yields_iff`, `mem_walkRoots`, `exists_walkRoots_iff`: the walks from several roots.
4. `discover_ascending`, `mem_components_iff`, `exists_discover_iff`: discovery.
5. `discover_reordered`, `discover_canonical`: what does not show.
-/

namespace MarkupLint

/-! ## 1. The order of paths -/

namespace Path

theorem Component.key_injective : Function.Injective Component.key := by
  intro a b h
  cases a <;> cases b <;> simp [Component.key] at h
  · rfl
  · rfl
  · rfl
  · next s t =>
    have hinj : Function.Injective UInt8.toNat := fun _ _ => UInt8.toNat_inj.mp
    rw [List.map_injective_iff.mpr hinj h]

/-- Paths are the same if they have the same components. -/
theorem same_iff {p q : Path} : p.same q = true ↔ p.components = q.components := by
  rw [same, beq_iff_eq]
  exact (List.map_injective_iff.mpr Component.key_injective).eq_iff

theorem same_symm {p q : Path} (h : p.same q = true) : q.same p = true := by
  rw [same_iff] at h ⊢
  exact h.symm

theorem le_of_same {p q : Path} (h : p.same q = true) : p.le q = true := by
  have hk : p.key = q.key := by simpa [same] using h
  have ht := le_total p p
  rw [Bool.or_self] at ht
  rw [le, ← hk]
  exact ht

def lt (p q : Path) : Prop := p.le q = true ∧ p.same q = false

end Path

namespace Files

/-! ## 2. Sorted lists without repeats -/

theorem dedup_subset {ps : List Path} : dedup ps ⊆ ps := by
  fun_induction dedup ps with
  | case1 => exact List.Subset.refl _
  | case2 p => exact List.Subset.refl _
  | case3 p q ps hs ih =>
    intro x hx
    rcases List.mem_cons.mp (ih hx) with rfl | hx
    · simp
    · simp [hx]
  | case4 p q ps hs ih => exact List.cons_subset_cons p ih

theorem exists_mem_dedup {ps : List Path} {p : Path} (h : p ∈ ps) :
    ∃ q ∈ dedup ps, q.same p = true := by
  fun_induction dedup ps generalizing p with
  | case1 => cases h
  | case2 p' =>
    obtain rfl := List.mem_singleton.mp h
    exact ⟨p, List.mem_singleton_self p, Path.same_iff.mpr rfl⟩
  | case3 p' q ps hs ih =>
    rcases List.mem_cons.mp h with rfl | h
    · exact ih List.mem_cons_self
    rcases List.mem_cons.mp h with rfl | h
    · obtain ⟨r, hr, he⟩ := ih List.mem_cons_self
      refine ⟨r, hr, Path.same_iff.mpr ?_⟩
      rw [Path.same_iff.mp he, Path.same_iff.mp hs]
    · exact ih (List.mem_cons_of_mem _ h)
  | case4 p' q ps hs ih =>
    rcases List.mem_cons.mp h with rfl | h
    · exact ⟨p, List.mem_cons_self, Path.same_iff.mpr rfl⟩
    · obtain ⟨r, hr, he⟩ := ih h
      exact ⟨r, List.mem_cons_of_mem _ hr, he⟩

theorem dedup_ascending {ps : List Path} (h : ps.Pairwise fun p q => p.le q = true) :
    (dedup ps).Pairwise Path.lt := by
  fun_induction dedup ps with
  | case1 => exact .nil
  | case2 p => simp
  | case3 p q ps hs ih =>
    obtain ⟨hp, hq⟩ := List.pairwise_cons.mp h
    obtain ⟨hq, hps⟩ := List.pairwise_cons.mp hq
    exact ih (List.pairwise_cons.mpr ⟨fun r hr => hp r (List.mem_cons_of_mem _ hr), hps⟩)
  | case4 p q ps hs ih =>
    obtain ⟨hp, hq⟩ := List.pairwise_cons.mp h
    refine List.pairwise_cons.mpr ⟨fun r hr => ?_, ih hq⟩
    have hr := dedup_subset hr
    refine ⟨hp r hr, Bool.eq_false_iff.mpr fun hpr => hs ?_⟩
    -- `q` stands between `p` and `r`, so `p` is the same as `q`
    have hqp : q.le p = true := by
      rcases List.mem_cons.mp hr with rfl | hr
      · exact Path.le_of_same (Path.same_symm hpr)
      · have hqr := (List.pairwise_cons.mp hq).1 r hr
        exact Path.le_trans hqr (Path.le_of_same (Path.same_symm hpr))
    exact Path.same_of_le (hp q List.mem_cons_self) hqp

theorem nodup_components {ps : List Path} (h : ps.Pairwise Path.lt) :
    (ps.map Path.components).Nodup := by
  rw [List.Nodup, List.pairwise_map]
  refine h.imp ?_
  rintro p q ⟨-, hs⟩ he
  rw [Path.same_iff.mpr he] at hs
  cases hs

/-- Lists in strictly ascending order with the same paths have the same components, entry by
entry. -/
theorem ascending_ext {ps qs : List Path} (hp : ps.Pairwise Path.lt) (hq : qs.Pairwise Path.lt)
    (h : ∀ k, k ∈ ps.map Path.components ↔ k ∈ qs.map Path.components) :
    ps.map Path.components = qs.map Path.components := by
  have hperm := (List.perm_ext_iff_of_nodup (nodup_components hp) (nodup_components hq)).mpr h
  let before (a b : List Path.Component) : Prop :=
    lexLe (lexLe Nat.ble) (a.map Path.Component.key) (b.map Path.Component.key) = true
  have hpb : (ps.map Path.components).Pairwise before :=
    List.pairwise_map.mpr (hp.imp fun hlt => hlt.1)
  have hqb : (qs.map Path.components).Pairwise before :=
    List.pairwise_map.mpr (hq.imp fun hlt => hlt.1)
  refine hperm.eq_of_pairwise (fun a b _ _ hab hba => ?_) hpb hqb
  have hk := lexLe_antisymm (fun _ _ => lexLe_antisymm Path.ble_antisymm) hab hba
  exact List.map_injective_iff.mpr Path.Component.key_injective hk

/-! ## 3. Walks from several roots -/

/-- The walk from a root yields the path as a file. -/
def Yields (t : FileTree) (includes excludes : List String) (root q : Path) : Prop :=
  ∃ s files, Selection.ofPatterns includes excludes = .ok s ∧ walk t root s = .ok files ∧ q ∈ files

/-- The walk from a root ends without an error. -/
def Walks (t : FileTree) (includes excludes : List String) (root : Path) : Prop :=
  ∃ s files, Selection.ofPatterns includes excludes = .ok s ∧ walk t root s = .ok files

variable {t : FileTree} {includes excludes : List String}

theorem walk_eq_ok_iff {root : Path} {s : Selection} {files : List Path} :
    walk t root s = .ok files ↔ ∃ vs, visits t root = .ok vs ∧
      files = (vs.filter fun v => s.status v == .file).map (·.1) := by
  unfold walk walkAll
  cases visits t root with
  | error e => simp [Except.map]
  | ok vs =>
    have hf : ((vs.map fun v => (⟨v.1, s.status v⟩ : WalkEntry)).filter
        (·.status == .file)).map (·.path) =
          (vs.filter fun v => s.status v == .file).map (·.1) := by
      rw [List.filter_map, List.map_map]
      rfl
    simp only [Except.map, Except.ok.injEq, exists_eq_left']
    rw [hf, eq_comm]

theorem status_eq_file_iff {s : Selection} {v : Path × Bool} :
    (s.status v == .file) = true ↔ v.2 = true ∧ s.admits v.1 = true := by
  rw [Selection.status]
  cases v.2 with
  | false => simp
  | true => cases s.admits v.1 <;> simp

/-- A walk yields the files that it visits and that are selected. -/
theorem yields_iff {root q : Path} : Yields t includes excludes root q ↔
    ∃ s vs, Selection.ofPatterns includes excludes = .ok s ∧ visits t root = .ok vs ∧
      (q, true) ∈ vs ∧ s.admits q = true := by
  constructor
  · rintro ⟨s, files, hs, hw, hq⟩
    obtain ⟨vs, hv, rfl⟩ := walk_eq_ok_iff.mp hw
    obtain ⟨⟨q, b⟩, hm, rfl⟩ := List.mem_map.mp hq
    obtain ⟨hm, hst⟩ := List.mem_filter.mp hm
    obtain ⟨rfl, ha⟩ := status_eq_file_iff.mp hst
    exact ⟨s, vs, hs, hv, hm, ha⟩
  · rintro ⟨s, vs, hs, hv, hm, ha⟩
    refine ⟨s, _, hs, walk_eq_ok_iff.mpr ⟨vs, hv, rfl⟩, List.mem_map.mpr ⟨(q, true), ?_, rfl⟩⟩
    exact List.mem_filter.mpr ⟨hm, status_eq_file_iff.mpr ⟨rfl, ha⟩⟩

theorem walkRoots_cons_eq_ok_iff {root : Path} {roots files : List Path} :
    walkRoots t includes excludes (root :: roots) = .ok files ↔
      ∃ s as bs, Selection.ofPatterns includes excludes = .ok s ∧ walk t root s = .ok as ∧
        walkRoots t includes excludes roots = .ok bs ∧ files = as ++ bs := by
  rw [walkRoots]
  cases Selection.ofPatterns includes excludes with
  | error e => simp
  | ok s =>
    cases hw : walk t root s with
    | error e => simp [hw]
    | ok as =>
      cases walkRoots t includes excludes roots with
      | error e => simp [hw, Except.map]
      | ok bs => simp [hw, Except.map, eq_comm]

theorem mem_walkRoots {roots files : List Path}
    (h : walkRoots t includes excludes roots = .ok files) {q : Path} :
    q ∈ files ↔ ∃ root ∈ roots, Yields t includes excludes root q := by
  induction roots generalizing files with
  | nil =>
    obtain rfl := Except.ok.inj h
    simp
  | cons root roots ih =>
    obtain ⟨s, as, bs, hs, hw, hr, rfl⟩ := walkRoots_cons_eq_ok_iff.mp h
    have hy : q ∈ as ↔ Yields t includes excludes root q := by
      constructor
      · intro hq
        exact ⟨s, as, hs, hw, hq⟩
      · rintro ⟨s', as', hs', hw', hq⟩
        obtain rfl := Except.ok.inj (hs.symm.trans hs')
        obtain rfl := Except.ok.inj (hw.symm.trans hw')
        exact hq
    rw [List.mem_append, hy, ih hr, List.exists_mem_cons_iff]

theorem exists_walkRoots_iff {roots : List Path} :
    (∃ files, walkRoots t includes excludes roots = .ok files) ↔
      ∀ root ∈ roots, Walks t includes excludes root := by
  induction roots with
  | nil => simp [walkRoots]
  | cons root roots ih =>
    rw [List.forall_mem_cons, ← ih]
    constructor
    · rintro ⟨files, h⟩
      obtain ⟨s, as, bs, hs, hw, hr, -⟩ := walkRoots_cons_eq_ok_iff.mp h
      exact ⟨⟨s, as, hs, hw⟩, bs, hr⟩
    · rintro ⟨⟨s, as, hs, hw⟩, bs, hr⟩
      exact ⟨as ++ bs, walkRoots_cons_eq_ok_iff.mpr ⟨s, as, bs, hs, hw, hr, rfl⟩⟩

/-! ## 4. Discovery -/

theorem discover_eq_ok_iff {roots files : List Path} :
    discover t includes excludes roots = .ok files ↔
      ∃ found, walkRoots t includes excludes roots = .ok found ∧
        files = dedup (found.mergeSort Path.le) := by
  rw [discover]
  cases walkRoots t includes excludes roots with
  | error e => simp [Except.map]
  | ok found => simp [Except.map, eq_comm]

theorem exists_discover_iff {roots : List Path} :
    (∃ files, discover t includes excludes roots = .ok files) ↔
      ∀ root ∈ roots, Walks t includes excludes root := by
  rw [← exists_walkRoots_iff]
  constructor
  · rintro ⟨files, h⟩
    obtain ⟨found, hf, -⟩ := discover_eq_ok_iff.mp h
    exact ⟨found, hf⟩
  · rintro ⟨found, hf⟩
    exact ⟨_, discover_eq_ok_iff.mpr ⟨found, hf, rfl⟩⟩

variable {roots files : List Path}

/-- What the walks yield in ascending order is found but for the repeats. -/
theorem discover_of_ascending {found : List Path}
    (hf : (walkRoots t includes excludes roots).toOption = some found)
    (ha : found.Pairwise fun p q => p.le q = true) (hd : dedup found = files) :
    discover t includes excludes roots = .ok files := by
  refine discover_eq_ok_iff.mpr ⟨found, ?_, ?_⟩
  · cases hw : walkRoots t includes excludes roots with
    | error e =>
      rw [hw] at hf
      cases hf
    | ok as =>
      rw [hw] at hf
      rw [Option.some.inj hf]
  · rw [List.mergeSort_of_pairwise ha, hd]

/-- The files are in strictly ascending order. -/
theorem discover_ascending (h : discover t includes excludes roots = .ok files) :
    files.Pairwise Path.lt := by
  obtain ⟨found, -, rfl⟩ := discover_eq_ok_iff.mp h
  refine dedup_ascending (List.pairwise_mergeSort ?_ ?_ found)
  · intro a b c
    exact Path.le_trans
  · exact Path.le_total

theorem yields_of_mem_discover (h : discover t includes excludes roots = .ok files) {q : Path}
    (hq : q ∈ files) : ∃ root ∈ roots, Yields t includes excludes root q := by
  obtain ⟨found, hf, rfl⟩ := discover_eq_ok_iff.mp h
  exact (mem_walkRoots hf).mp (List.mem_mergeSort.mp (dedup_subset hq))

/-- What is found has the components of what the walks yield. -/
theorem mem_components_iff (h : discover t includes excludes roots = .ok files)
    {k : List Path.Component} : k ∈ files.map Path.components ↔
      ∃ root ∈ roots, ∃ p, Yields t includes excludes root p ∧ p.components = k := by
  rw [List.mem_map]
  constructor
  · rintro ⟨p, hp, hk⟩
    obtain ⟨root, hr, hy⟩ := yields_of_mem_discover h hp
    exact ⟨root, hr, p, hy, hk⟩
  · rintro ⟨root, hr, p, hy, hk⟩
    obtain ⟨found, hf, rfl⟩ := discover_eq_ok_iff.mp h
    have hp := (mem_walkRoots hf).mpr ⟨root, hr, hy⟩
    obtain ⟨u, hu, hs⟩ := exists_mem_dedup (List.mem_mergeSort.mpr hp)
    exact ⟨u, hu, (Path.same_iff.mp hs).trans hk⟩

theorem exists_mem_discover_iff (h : discover t includes excludes roots = .ok files) {q : Path} :
    (∃ p ∈ files, p.same q = true) ↔
      ∃ root ∈ roots, ∃ p, Yields t includes excludes root p ∧ p.same q = true := by
  simp only [Path.same_iff]
  rw [← mem_components_iff h, List.mem_map]

/-! ## 5. What does not show -/

variable {t' : FileTree}

theorem yields_reordered (h : Reordered t.entries t'.entries) {root q : Path}
    (hy : Yields t includes excludes root q) : Yields t' includes excludes root q := by
  obtain ⟨s, vs, hs, hv, hm, ha⟩ := yields_iff.mp hy
  obtain ⟨vs', hv', hp⟩ := visits_reordered h hv
  exact yields_iff.mpr ⟨s, vs', hs, hv', hp.mem_iff.mp hm, ha⟩

theorem walks_reordered (h : Reordered t.entries t'.entries) {root : Path}
    (hw : Walks t includes excludes root) : Walks t' includes excludes root := by
  obtain ⟨s, files, hs, hw⟩ := hw
  obtain ⟨vs, hv, -⟩ := walk_eq_ok_iff.mp hw
  obtain ⟨vs', hv', -⟩ := visits_reordered h hv
  exact ⟨s, _, hs, walk_eq_ok_iff.mpr ⟨vs', hv', rfl⟩⟩

/-- The files found are those found from the same roots in another order, or with other repeats, and
when folders enumerate their entries in another order. -/
theorem discover_reordered (h : discover t includes excludes roots = .ok files)
    (hr : Reordered t.entries t'.entries) {roots' : List Path}
    (hroots : ∀ root, root ∈ roots' ↔ root ∈ roots) :
    ∃ files', discover t' includes excludes roots' = .ok files' ∧
      List.Forall₂ (fun p q => p.same q = true) files files' := by
  have hwalks : ∀ root ∈ roots', Walks t' includes excludes root := by
    intro root hroot
    exact walks_reordered hr (exists_discover_iff.mp ⟨files, h⟩ root ((hroots root).mp hroot))
  obtain ⟨files', h'⟩ := exists_discover_iff.mpr hwalks
  have hyields : ∀ root q, Yields t includes excludes root q ↔ Yields t' includes excludes root q :=
    fun root q => ⟨yields_reordered hr, yields_reordered hr.symm⟩
  have hmem : ∀ k, k ∈ files.map Path.components ↔ k ∈ files'.map Path.components := by
    intro k
    rw [mem_components_iff h, mem_components_iff h']
    simp only [hroots, hyields]
  have heq := ascending_ext (discover_ascending h) (discover_ascending h') hmem
  refine ⟨files', h', ?_⟩
  rw [← List.forall₂_eq_eq_eq, List.forall₂_map_left_iff, List.forall₂_map_right_iff] at heq
  exact heq.imp fun _ _ he => Path.same_iff.mpr he

/-- What is found from the roots, and what does not show in it. The roots are meant relative to the
working folder and not to lead above it; one that leads outside is not there in any tree. -/
structure IsCanonical (t : FileTree) (includes excludes : List String) (roots files : List Path) :
    Prop where
  /-- The files are in strictly ascending order. -/
  ascending : files.Pairwise Path.lt
  /-- No two of them are the same path. -/
  different : files.Pairwise fun p q => p.components ≠ q.components
  /-- Each is what the walk from some root yields. -/
  yielded : ∀ p ∈ files, ∃ root ∈ roots, Yields t includes excludes root p
  /-- What the walk from some root yields is found, as the same path. -/
  complete : ∀ q, (∃ p ∈ files, p.same q = true) ↔
    ∃ root ∈ roots, ∃ p, Yields t includes excludes root p ∧ p.same q = true
  /-- The same is found from the same roots in another order or with other repeats, and when folders
  enumerate their entries in another order. -/
  stable : ∀ (t' : FileTree) (roots' : List Path), Reordered t.entries t'.entries →
    (∀ root, root ∈ roots' ↔ root ∈ roots) →
      ∃ files', discover t' includes excludes roots' = .ok files' ∧
        List.Forall₂ (fun p q => p.same q = true) files files'

theorem discover_canonical (h : discover t includes excludes roots = .ok files) :
    IsCanonical t includes excludes roots files where
  ascending := discover_ascending h
  different := List.pairwise_map.mp (nodup_components (discover_ascending h))
  yielded _ := yields_of_mem_discover h
  complete _ := exists_mem_discover_iff h
  stable _ _ hr hroots := discover_reordered h hr hroots

/-- A folder with two files. -/
def folderOfTwo : FileTree :=
  { entries := [(nameOf "a", .folder [(nameOf "x.html", .file []), (nameOf "y.html", .file [])])] }

theorem discover_canonical_repeats :
    discover folderOfTwo ["**/x.html"] [] [.ofString ".", .ofString "a", .ofString "a//"] =
      .ok [.ofString "./a/x.html", .ofString "a/x.html"] ∧
    IsCanonical folderOfTwo ["**/x.html"] [] [.ofString ".", .ofString "a", .ofString "a//"]
      [.ofString "./a/x.html", .ofString "a/x.html"] := by
  have hd : dedup [.ofString "./a/x.html", .ofString "a/x.html", .ofString "a//x.html"] =
      [.ofString "./a/x.html", .ofString "a/x.html"] := by
    rw [dedup, if_neg (by decide +kernel), dedup, if_pos (by decide +kernel), dedup]
  have h : discover folderOfTwo ["**/x.html"] [] [.ofString ".", .ofString "a", .ofString "a//"] =
      .ok [.ofString "./a/x.html", .ofString "a/x.html"] :=
    discover_of_ascending (by decide +kernel) (by decide +kernel) hd
  exact ⟨h, discover_canonical h⟩

end Files

end MarkupLint
