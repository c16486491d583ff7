import MarkupLint.Proofs.Overlap

/-!
# Writing into a tree

A tree is told by what is in each place: a file with its content, a folder, or nothing. Writing a
file changes what is in one place, and everything else is as it was. Paths go by folders only, so
they lead where they led before.

Results:
1. `child?_setEntry`, `entryAt?_setEntry`: one folder.
2. `In.entryAt?_append`, `In.entryAt?_rebuild`: the spots of a tree and what is below them.
3. `read_eq_ok_iff`, `contains_iff`, `hasFile_iff`: what is said of a path is said of its place.
4. `KeepsKinds.place?`: paths lead where they led as long as files and folders stay what they are.
5. `write_eq_ok_iff`, `write_changes`, `eq_of_write_error`: writing.
6. `write_ok_of_hasFile`, `write_join_ok_iff`: where a file can be written.
-/

namespace MarkupLint

open Files

/-! ## Definitions -/

namespace Files

/-- What is in a place. -/
inductive Entry where
  | file (content : List UInt8)
  | folder
deriving DecidableEq, Repr

def Node.entry : Node → Entry
  | .file content => .file content
  | .folder _ => .folder

/-- What is in the place that names lead to from a node. -/
def Node.entryAt? : Node → List Name → Option Entry
  | n, [] => some n.entry
  | .file _, _ :: _ => none
  | .folder es, name :: names => (child? es name).bind fun n => n.entryAt? names

end Files

namespace FileTree

/-- What is in the place that names lead to from the working folder. -/
def entryAt? (t : FileTree) (names : List Name) : Option Entry :=
  (Node.folder t.entries).entryAt? names

/-- What is a file in the first tree is one in the second, and what is a folder is a folder. -/
def KeepsKinds (t t' : FileTree) : Prop :=
  ∀ names e, t.entryAt? names = some e →
    ∃ e', t'.entryAt? names = some e' ∧ (e' = .folder ↔ e = .folder)

/-- A folder is there under the path; the empty path is the working folder. -/
def FolderAt (t : FileTree) (p : Path) : Prop :=
  p.bytes = [] ∨ ∃ s, t.spot p = .ok s ∧ s.node.isFolder = true

end FileTree

namespace Files

/-! ## 1. One folder -/

theorem child?_setEntry (name : Name) (n : Node) (es : Folder) (name' : Name) :
    child? (setEntry name n es) name' = if name' = name then some n else child? es name' := by
  induction es with
  | nil =>
    by_cases hn : name' = name
    · subst hn
      simp [setEntry, child?]
    · simp [setEntry, child?, hn, Ne.symm hn]
  | cons e es ih =>
    unfold child? at ih ⊢
    rw [setEntry]
    split
    · next he =>
      subst he
      by_cases hn : name' = e.1
      · simp [hn]
      · simp [hn, Ne.symm hn]
    · next he =>
      rw [List.find?_cons, List.find?_cons]
      by_cases hn : e.1 = name'
      · subst hn
        simp [he]
      · simp only [beq_false_of_ne hn]
        exact ih

/-- A change below an entry is a change below the folder. -/
theorem entryAt?_setEntry {es : Folder} {name : Name} {n : Node} {names : List Name} {e : Entry}
    (h : n.entryAt? =
      Function.update (fun rest => (child? es name).bind (·.entryAt? rest)) names (some e)) :
    (Node.folder (setEntry name n es)).entryAt? =
      Function.update (Node.folder es).entryAt? (name :: names) (some e) := by
  funext rest
  cases rest with
  | nil => rfl
  | cons name' rest =>
    rw [Node.entryAt?, child?_setEntry]
    by_cases hn : name' = name
    · subst hn
      rw [if_pos rfl, Option.bind_some, h]
      by_cases hr : rest = names
      · subst hr
        simp
      · simp [hr, Node.entryAt?]
    · rw [if_neg hn, Function.update_of_ne (by simp [hn]), Node.entryAt?]

/-- A file is put in the place of a file, or where there is nothing. -/
theorem entryAt?_file {content : List UInt8} {below : Option Node}
    (h : below.any Node.isFolder = false) :
    (Node.file content).entryAt? =
      Function.update (fun rest => below.bind (·.entryAt? rest)) [] (some (.file content)) := by
  funext rest
  cases rest with
  | nil => rfl
  | cons name rest =>
    rw [Function.update_of_ne (List.cons_ne_nil _ _), Node.entryAt?]
    cases below with
    | none => rfl
    | some n =>
      cases n with
      | file _ => rfl
      | folder es => cases h

/-! ## 2. Spots -/

namespace Spot.In

variable {t : FileTree} {s : Spot}

/-- What is below a spot is in the places behind its own. -/
theorem entryAt?_append (h : s.In t) (names : List Name) :
    t.entryAt? (s.names ++ names) = s.node.entryAt? names := by
  induction h generalizing names with
  | top => rfl
  | @down s es name n hin hs hm ih =>
    have hc := (child?_eq_some_iff (hin.entries hs)).mpr hm
    rw [names_down, List.append_assoc, ih, hs, List.singleton_append, Node.entryAt?, hc,
      Option.bind_some]

theorem entryAt? (h : s.In t) : t.entryAt? s.names = some s.node.entry := by
  simpa [Node.entryAt?] using h.entryAt?_append []

theorem exists_folder (h : s.In t) (he : t.entryAt? s.names = some .folder) :
    ∃ es, s.node = .folder es := by
  rw [h.entryAt?] at he
  cases hn : s.node with
  | file content =>
    rw [hn] at he
    cases he
  | folder es => exact ⟨es, rfl⟩

/-- A step starts at a folder. -/
theorem entryAt?_of_step {v : Spot} (h : s.In t) {piece : Name} (hv : s.Step piece v) :
    t.entryAt? s.names = some .folder := by
  rw [h.entryAt?]
  cases hv with
  | stay _ => rfl
  | up => rfl
  | down => rfl

/-- One gets down to whatever is in the place. -/
theorem exists_down (h : s.In t) {name : Name}
    (hn : ¬(name = [] ∨ name = Path.dot ∨ name = Path.dotDot)) {e : Entry}
    (he : t.entryAt? (s.names ++ [name]) = some e) :
    ∃ v, s.Step name v ∧ v.names = s.names ++ [name] := by
  obtain ⟨node, above⟩ := s
  rw [not_or, not_or] at hn
  obtain ⟨h1, h2, h3⟩ := hn
  rw [h.entryAt?_append] at he
  cases node with
  | file content => cases he
  | folder es =>
    rw [Node.entryAt?] at he
    obtain ⟨n, hc, -⟩ := Option.bind_eq_some_iff.mp he
    exact ⟨_, .down h1 h2 h3 hc, names_down ⟨.folder es, above⟩ n es name⟩

/-- A change below a spot is a change of the tree. -/
theorem entryAt?_rebuild (h : s.In t) {n : Node} {names : List Name} {e : Entry}
    (hn : n.entryAt? = Function.update s.node.entryAt? names (some e)) :
    (rebuild n s.above).entryAt? = Function.update t.entryAt? (s.names ++ names) (some e) := by
  induction h generalizing n names with
  | top => exact hn
  | @down s es name m hin hs hm ih =>
    have hc := (child?_eq_some_iff (hin.entries hs)).mpr hm
    rw [names_down, List.append_assoc, List.singleton_append, rebuild]
    refine ih ?_
    rw [hs]
    refine entryAt?_setEntry ?_
    simpa [hc] using hn

end Spot.In

theorem isFolder_rebuild {n : Node} (h : n.isFolder = true) (above : List (Folder × Name)) :
    (rebuild n above).isFolder = true := by
  induction above generalizing n with
  | nil => exact h
  | cons a above ih => exact ih rfl

theorem entryAt?_ofTop {n : Node} (hn : n.isProper = true) (h : n.isFolder = true) :
    (FileTree.ofTop n hn).entryAt? = n.entryAt? := by
  cases n with
  | file content => cases h
  | folder es => rfl

end Files

namespace FileTree

variable {t t' : FileTree} {p : Path}

/-! ## 3. Paths -/

/-- A path leads to a place where something is. -/
theorem entryAt?_of_place {names : List Name} (h : t.place? p = some names) :
    ∃ s, t.spot p = .ok s ∧ t.entryAt? names = some s.node.entry := by
  obtain ⟨s, hs, rfl⟩ := place?_eq_some_iff.mp h
  exact ⟨s, hs, (in_of_spot hs).entryAt?⟩

theorem contains_iff : t.contains p = true ↔ ∃ names, t.place? p = some names := by
  rw [FileTree.contains, FileTree.place?]
  cases t.spot p with
  | error e => simp [Except.isOk, Except.toBool, Except.toOption]
  | ok s => simp [Except.isOk, Except.toBool, Except.toOption]

theorem contains_eq_false_iff : t.contains p = false ↔ t.place? p = none := by
  rw [← Bool.not_eq_true, contains_iff, not_exists, Option.eq_none_iff_forall_ne_some]

theorem read_eq_ok_iff {content : List UInt8} : t.read p = .ok content ↔
    ∃ names, t.place? p = some names ∧ t.entryAt? names = some (.file content) := by
  constructor
  · intro h
    unfold FileTree.read at h
    split at h
    · cases h
    · next s hs =>
      refine ⟨s.names, place?_eq_some_iff.mpr ⟨s, hs, rfl⟩, ?_⟩
      rw [(in_of_spot hs).entryAt?]
      split at h
      · next hn =>
        obtain rfl := Except.ok.inj h
        rw [hn, Node.entry]
      · cases h
  · rintro ⟨names, hp, he⟩
    obtain ⟨⟨node, above⟩, hs, hn⟩ := entryAt?_of_place hp
    rw [hn] at he
    rw [FileTree.read, hs]
    cases node with
    | file content' =>
      obtain rfl := Entry.file.inj (Option.some.inj he)
      rfl
    | folder es => cases he

theorem hasFile_iff : t.hasFile p = true ↔ ∃ content, t.read p = .ok content := by
  unfold FileTree.hasFile FileTree.read
  cases t.spot p with
  | error e => simp
  | ok s =>
    obtain ⟨node, above⟩ := s
    cases node with
    | file content => simp [Node.isFile]
    | folder es => simp [Node.isFile]

theorem exists_pieces (p : Path) : ∃ ps name, p.pieces = ps ++ [name] := by
  have hne : p.pieces ≠ [] := Path.piecesFrom_ne_nil _ _
  exact ⟨_, _, (List.dropLast_append_getLast hne).symm⟩

/-- The last piece of a path leads to its place. -/
theorem place?_of_step {s v : Spot} {ps : List Name} {name : Name} (h1 : p.bytes ≠ [])
    (h2 : p.isAbsolute = false) (hps : p.pieces = ps ++ [name]) (hf : t.top.follow ps = .ok s)
    (hv : s.Step name v) : t.place? p = some v.names := by
  refine place?_eq_some_iff.mpr ⟨v, spot_of_follow h1 h2 ?_, rfl⟩
  rw [hps, Spot.follow_append_eq_ok_iff]
  exact ⟨s, hf, Spot.follow_cons_eq_ok_iff.mpr ⟨v, hv, rfl⟩⟩

/-! ## 4. Trees of the same kinds -/

namespace KeepsKinds

theorem refl (t : FileTree) : t.KeepsKinds t := fun _ e he => ⟨e, he, Iff.rfl⟩

variable {s s' v : Spot}

theorem folder (h : t.KeepsKinds t') {names : List Name} (he : t.entryAt? names = some .folder) :
    t'.entryAt? names = some .folder := by
  obtain ⟨e', he', hk⟩ := h names _ he
  rw [he', hk.mpr rfl]

theorem step (h : t.KeepsKinds t') (hs : s.In t) (hs' : s'.In t') (hn : s'.names = s.names)
    {piece : Name} (hv : s.Step piece v) : ∃ v', s'.Step piece v' ∧ v'.names = v.names := by
  have hfolder : t'.entryAt? s'.names = some .folder := by
    rw [hn]
    exact h.folder (hs.entryAt?_of_step hv)
  obtain ⟨es', hes'⟩ := hs'.exists_folder hfolder
  obtain ⟨node', above'⟩ := s'
  obtain rfl : node' = .folder es' := hes'
  cases hv with
  | stay hstay => exact ⟨_, .stay hstay, hn⟩
  | @up es a above =>
    cases above' with
    | nil => simp [Spot.names] at hn
    | cons a' above' =>
      refine ⟨_, .up, ?_⟩
      simp only [Spot.names, List.map_cons, List.reverse_cons] at hn ⊢
      exact (List.append_inj' hn rfl).1
  | @down es above _ n h1 h2 h3 hc =>
    have hdown := hs.step (.down h1 h2 h3 hc)
    obtain ⟨e', he', -⟩ := h _ _ hdown.entryAt?
    rw [Spot.names_down ⟨.folder es, above⟩, ← hn] at he'
    obtain ⟨v', hv', hn'⟩ := hs'.exists_down (by simp [h1, h2, h3]) he'
    exact ⟨v', hv', by rw [hn', hn, Spot.names_down ⟨.folder es, above⟩]⟩

theorem follow (h : t.KeepsKinds t') (hs : s.In t) (hs' : s'.In t')
    (hn : s'.names = s.names) {u : Spot} {ps : List Name} (hf : s.follow ps = .ok u) :
    ∃ u', s'.follow ps = .ok u' ∧ u'.names = u.names := by
  induction ps generalizing s s' with
  | nil =>
    obtain rfl := Except.ok.inj hf
    exact ⟨s', rfl, hn⟩
  | cons piece ps ih =>
    obtain ⟨v, hv, hf⟩ := Spot.follow_cons_eq_ok_iff.mp hf
    obtain ⟨v', hv', hn'⟩ := h.step hs hs' hn hv
    obtain ⟨u', hf', hu⟩ := ih (hs.step hv) (hs'.step hv') hn' hf
    exact ⟨u', Spot.follow_cons_eq_ok_iff.mpr ⟨v', hv', hf'⟩, hu⟩

/-- A path leads where it led. -/
theorem place? (h : t.KeepsKinds t') {names : List Name} (hp : t.place? p = some names) :
    t'.place? p = some names := by
  obtain ⟨s, hs, rfl⟩ := place?_eq_some_iff.mp hp
  obtain ⟨h1, h2, hf⟩ := spot_eq_ok hs
  obtain ⟨s', hf', hn⟩ := h.follow .top .top rfl hf
  exact place?_eq_some_iff.mpr ⟨s', spot_of_follow h1 h2 hf', hn⟩

end KeepsKinds

/-! ## 5. Writing -/

instance : Subsingleton (Site t p) where
  allEq := by
    rintro ⟨s, es, name, -, -, hlast, habove, hfolder, -, -⟩
      ⟨s', es', name', -, -, hlast', habove', hfolder', -, -⟩
    obtain rfl := hlast.symm.trans hlast'
    obtain rfl := Except.ok.inj (habove.symm.trans habove')
    obtain rfl := Node.folder.inj (hfolder.symm.trans hfolder')
    rfl

/-- A site is found if there is one. -/
theorem site_eq_ok (s : Site t p) : t.site p = .ok s := by
  cases h : t.site p with
  | ok s' => rw [Subsingleton.elim s' s]
  | error e =>
    exfalso
    unfold site at h
    split at h
    · next hrel => simp [s.nonempty, s.relative] at hrel
    · split at h
      · next hf => simp [s.above] at hf
      · next u hf =>
        obtain rfl := Except.ok.inj (s.above.symm.trans hf)
        split at h
        · next hu => simp [s.folder] at hu
        · next es hu =>
          obtain rfl := Node.folder.inj (s.folder.symm.trans hu)
          have hleads := s.leads
          have hfree := s.free
          rw [← s.last] at hleads hfree
          rw [dif_neg hleads, dif_neg ((Bool.not_eq_true _).mpr hfree)] at h
          cases h

/-- What can be written and what comes of it does not depend on the content. -/
theorem write_eq_ok_iff {content : List UInt8} :
    t.write p content = (.ok (), t') ↔ ∃ s : Site t p, t' = s.put content := by
  rw [write]
  constructor
  · intro h
    cases hs : t.site p with
    | error e => simp [hs] at h
    | ok s =>
      simp only [hs, Prod.mk.injEq, true_and] at h
      exact ⟨s, h.symm⟩
  · rintro ⟨s, rfl⟩
    rw [site_eq_ok s]

/-- When a file cannot be written, the tree is as it was. -/
theorem eq_of_write_error {content : List UInt8} {e : FileError}
    (h : t.write p content = (.error e, t')) : t' = t := by
  unfold write at h
  split at h
  · exact (Prod.mk.inj h).2.symm
  · cases (Prod.mk.inj h).1

theorem write_ok_iff {content : List UInt8} :
    (t.write p content).1 = .ok () ↔ Nonempty (Site t p) := by
  constructor
  · intro h
    obtain ⟨s, -⟩ := write_eq_ok_iff.mp (Prod.ext h rfl)
    exact ⟨s⟩
  · rintro ⟨s⟩
    rw [write_eq_ok_iff.mpr ⟨s, rfl⟩]

namespace Site

variable (s : Site t p)

theorem inTree : s.spot.In t := Spot.In.top.follow s.above

theorem pieces : p.pieces = p.pieces.dropLast ++ [s.name] := by
  obtain ⟨ps, last, hps⟩ := exists_pieces p
  have hlast := s.last
  rw [hps] at hlast ⊢
  simpa using hlast

/-- The place of the file. -/
def names : List Name := s.spot.names ++ [s.name]

/-- Only the place of the file changes. -/
theorem entryAt?_put (content : List UInt8) :
    (s.put content).entryAt? = Function.update t.entryAt? s.names (some (.file content)) := by
  have hfolder : (s.topWith content).isFolder = true := isFolder_rebuild rfl _
  rw [put, entryAt?_ofTop _ hfolder, topWith]
  refine s.inTree.entryAt?_rebuild ?_
  rw [s.folder]
  exact entryAt?_setEntry (entryAt?_file s.free)

/-- There is no folder in the place of the file. -/
theorem entryAt?_ne_folder : t.entryAt? s.names ≠ some .folder := by
  intro he
  rw [names, s.inTree.entryAt?_append, s.folder, Node.entryAt?] at he
  obtain ⟨n, hc, hn⟩ := Option.bind_eq_some_iff.mp he
  have hfree := s.free
  rw [hc] at hfree
  cases n with
  | file content => cases hn
  | folder inner => cases hfree

theorem keepsKinds (content : List UInt8) : t.KeepsKinds (s.put content) := by
  intro names e he
  rw [s.entryAt?_put]
  by_cases hn : names = s.names
  · subst hn
    refine ⟨.file content, Function.update_self .., ?_⟩
    simp only [reduceCtorEq, false_iff]
    rintro rfl
    exact s.entryAt?_ne_folder he
  · exact ⟨e, by rwa [Function.update_of_ne hn], Iff.rfl⟩

/-- If there is something in the place of the file, the path leads there. -/
theorem place?_of_entryAt? {e : Entry} (he : t.entryAt? s.names = some e) :
    t.place? p = some s.names := by
  obtain ⟨v, hv, hn⟩ := s.inTree.exists_down s.leads he
  rw [names, ← hn]
  exact place?_of_step s.nonempty s.relative s.pieces s.above hv

/-- Afterwards the path leads to the file. -/
theorem place?_put (content : List UInt8) : (s.put content).place? p = some s.names := by
  -- the folder above is found again, and in it the file
  obtain ⟨u, hf, hn⟩ := (s.keepsKinds content).follow .top .top rfl s.above
  have hu : u.In (s.put content) := Spot.In.top.follow hf
  have he : (s.put content).entryAt? (u.names ++ [s.name]) = some (.file content) := by
    rw [hn, s.entryAt?_put, names, Function.update_self]
  obtain ⟨v, hv, hvn⟩ := hu.exists_down s.leads he
  rw [names, ← hn, ← hvn]
  exact place?_of_step s.nonempty s.relative s.pieces hf hv

end Site

/-- A file that is written is in the place where the path leads afterwards, where there was nothing
or a file before; every other place is as it was. -/
theorem write_changes {content : List UInt8} (h : t.write p content = (.ok (), t')) :
    ∃ names, t'.place? p = some names ∧
      t'.entryAt? = Function.update t.entryAt? names (some (.file content)) ∧
      t.entryAt? names ≠ some .folder ∧ (t.place? p = none → t.entryAt? names = none) := by
  obtain ⟨s, rfl⟩ := write_eq_ok_iff.mp h
  refine ⟨s.names, s.place?_put content, s.entryAt?_put content, s.entryAt?_ne_folder, ?_⟩
  intro hp
  by_contra hne
  obtain ⟨e, he⟩ := Option.ne_none_iff_exists'.mp hne
  rw [s.place?_of_entryAt? he] at hp
  cases hp

theorem keepsKinds_of_write {content : List UInt8} (h : t.write p content = (.ok (), t')) :
    t.KeepsKinds t' := by
  obtain ⟨s, rfl⟩ := write_eq_ok_iff.mp h
  exact s.keepsKinds content

/-! ## 6. Where a file can be written -/

theorem site_of_pieces {es : Folder} {above : List (Folder × Name)} {ps : List Name} {name : Name}
    (h1 : p.bytes ≠ []) (h2 : p.isAbsolute = false) (hps : p.pieces = ps ++ [name])
    (hf : t.top.follow ps = .ok ⟨.folder es, above⟩)
    (hleads : ¬(name = [] ∨ name = Path.dot ∨ name = Path.dotDot))
    (hfree : (child? es name).any Node.isFolder = false) : Nonempty (Site t p) :=
  ⟨⟨.folder es, above⟩, es, name, h1, h2, by simp [hps], by simpa [hps] using hf, rfl, hleads,
    hfree⟩

/-- A file that is there can be written again. -/
theorem write_ok_of_hasFile (h : t.hasFile p = true) (content : List UInt8) :
    (t.write p content).1 = .ok () := by
  unfold hasFile at h
  split at h
  · next u hu =>
    obtain ⟨h1, h2, hf⟩ := spot_eq_ok hu
    obtain ⟨ps, name, hps⟩ := exists_pieces p
    rw [hps, Spot.follow_append_eq_ok_iff] at hf
    obtain ⟨s, hs, hlast⟩ := hf
    obtain ⟨v, hv, hf⟩ := Spot.follow_cons_eq_ok_iff.mp hlast
    obtain rfl := Except.ok.inj hf
    cases hv with
    | stay _ => cases h
    | up => cases h
    | @down es above _ n hn1 hn2 hn3 hc =>
      have hfree : (child? es name).any Node.isFolder = false := by
        cases n with
        | file content' =>
          rw [hc]
          rfl
        | folder inner => cases h
      exact write_ok_iff.mpr (site_of_pieces h1 h2 hps hs (by simp [hn1, hn2, hn3]) hfree)
  · cases h

/-- A slash at the end of a path leads to a folder only. -/
theorem follow_slash {s u : Spot} {ps : List Name} :
    s.follow (ps ++ [[]]) = .ok u ↔ s.follow ps = .ok u ∧ u.node.isFolder = true := by
  rw [Spot.follow_append_eq_ok_iff]
  constructor
  · rintro ⟨v, hf, hlast⟩
    obtain ⟨w, hv, hw⟩ := Spot.follow_cons_eq_ok_iff.mp hlast
    obtain rfl := Except.ok.inj hw
    cases hv with
    | stay _ => exact ⟨hf, rfl⟩
    | down h1 => exact absurd rfl h1
  · rintro ⟨hf, hu⟩
    obtain ⟨node, above⟩ := u
    cases node with
    | file content => cases hu
    | folder es => exact ⟨_, hf, Spot.follow_cons_eq_ok_iff.mpr ⟨_, .stay (.inl rfl), rfl⟩⟩

theorem exists_pieces_join (p : Path) {name : Name} (hn : Path.isName name = true) :
    ∃ ps, (p.join name).pieces = ps ++ [name] := by
  by_cases hp : p.bytes = []
  · have hj : p.join name = ⟨name⟩ := by simp [Path.join, hp]
    exact ⟨[], by rw [hj, Path.pieces_name hn]; rfl⟩
  · obtain ⟨ps, hj, -⟩ := Path.pieces_join hp (Path.isName_iff.mp hn).2.2.2
    exact ⟨ps, hj⟩

/-- The path of an entry goes through the folder of the path. -/
theorem folderAt_iff_of_join {name : Name} (hn : Path.isName name = true) : t.FolderAt p ↔
    (p.join name).isAbsolute = false ∧ ∃ ps s, (p.join name).pieces = ps ++ [name] ∧
      t.top.follow ps = .ok s ∧ s.node.isFolder = true := by
  obtain ⟨-, -, -, hslash⟩ := Path.isName_iff.mp hn
  by_cases hp : p.bytes = []
  · have hj : p.join name = ⟨name⟩ := by simp [Path.join, hp]
    rw [hj]
    exact iff_of_true (.inl hp)
      ⟨Path.isAbsolute_name hn, [], t.top, Path.pieces_name hn, rfl, rfl⟩
  · obtain ⟨ps, hj, -, hps⟩ := Path.pieces_join hp hslash
    have hspot : ∀ s : Spot, s.node.isFolder = true →
        (t.top.follow p.pieces = .ok s ↔ t.top.follow ps = .ok s) := by
      intro s hs
      rcases hps with hps | hps
      · rw [hps]
      · rw [hps, follow_slash]
        exact and_iff_left hs
    rw [Path.isAbsolute_join hp, hj]
    constructor
    · rintro (h | ⟨s, hs, hfolder⟩)
      · exact absurd h hp
      · obtain ⟨-, hrel, hf⟩ := spot_eq_ok hs
        exact ⟨hrel, ps, s, rfl, (hspot s hfolder).mp hf, hfolder⟩
    · rintro ⟨hrel, ps', s, hps', hf, hfolder⟩
      obtain rfl := List.append_cancel_right hps'
      exact .inr ⟨s, spot_of_follow hp hrel ((hspot s hfolder).mpr hf), hfolder⟩

/-- Where there is nothing, a file can be written if the folder is there. -/
theorem write_join_ok_iff {name : Name} (hn : Path.isName name = true)
    (hp : t.place? (p.join name) = none) (content : List UInt8) :
    (t.write (p.join name) content).1 = .ok () ↔ t.FolderAt p := by
  obtain ⟨h1, h2, h3, -⟩ := Path.isName_iff.mp hn
  rw [folderAt_iff_of_join hn, write_ok_iff]
  constructor
  · rintro ⟨s⟩
    obtain ⟨ps, hps⟩ := exists_pieces_join p hn
    have hname : s.name = name := by
      rw [← s.last, hps]
      simp
    have hpieces := s.pieces
    rw [hname] at hpieces
    exact ⟨s.relative, _, s.spot, hpieces, s.above, by rw [s.folder, Node.isFolder]⟩
  · rintro ⟨hrel, ps, ⟨node, above⟩, hps, hf, hfolder⟩
    cases node with
    | file content' => cases hfolder
    | folder es =>
      have hfree : (child? es name).any Node.isFolder = false := by
        cases hc : child? es name with
        | none => rfl
        | some n =>
          have hplace := place?_of_step (Path.join_ne_nil p h1) hrel hps hf (.down h1 h2 h3 hc)
          rw [hp] at hplace
          cases hplace
      exact site_of_pieces (Path.join_ne_nil p h1) hrel hps hf (by simp [h1, h2, h3]) hfree

end FileTree

end MarkupLint
