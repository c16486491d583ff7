import Mathlib
import MarkupLint.Proofs.Places

/-!
# The order of entries

A file system enumerates the entries of a folder in whatever order it likes. A tree with the entries
of its folders in another order is the same file system, and a walk of it visits the same paths in
another order: entries are looked up by their names, so the ignore files that count are the same,
and each entry is visited once wherever it stands.

Results:
1. `Reordered.mem`, `Reordered.proper`, `Reordered.child?`: trees in another order.
2. `ofFolder_reordered`, `levelsAbove_alike`: the ignore files that count are the same.
3. `Alike.step`, `Alike.follow`, `spot_reordered`: a path leads to the same place.
4. `visit_perm`, `visits_reordered`: a walk visits the same paths.
-/

namespace MarkupLint.Files

/-! ## 1. Trees in another order -/

/-- The same folder, with its entries and those of the folders within in another order. -/
inductive Reordered : Folder → Folder → Prop
  | nil : Reordered [] []
  | file (name : Name) (content : List UInt8) {es es' : Folder} : Reordered es es' →
      Reordered ((name, .file content) :: es) ((name, .file content) :: es')
  | folder (name : Name) {inner inner' es es' : Folder} : Reordered inner inner' →
      Reordered es es' → Reordered ((name, .folder inner) :: es) ((name, .folder inner') :: es')
  | swap (d e : Name × Node) (es : Folder) : Reordered (d :: e :: es) (e :: d :: es)
  | trans {es es' es'' : Folder} : Reordered es es' → Reordered es' es'' → Reordered es es''

/-- The same file or folder, in another order. -/
inductive Alike : Node → Node → Prop
  | file (content : List UInt8) : Alike (.file content) (.file content)
  | folder {es es' : Folder} : Reordered es es' → Alike (.folder es) (.folder es')

/-- The same place, with what is there and above in another order. -/
structure Spot.Alike (s s' : Spot) : Prop where
  node : Files.Alike s.node s'.node
  above : List.Forall₂ (fun a b => Reordered a.1 b.1 ∧ a.2 = b.2) s.above s'.above

mutual

theorem Alike.refl : (n : Node) → Alike n n
  | .file content => .file content
  | .folder es => .folder (Reordered.refl es)

theorem Reordered.refl : (es : List (Name × Node)) → Reordered es es
  | [] => .nil
  | (name, .file content) :: es => .file name content (Reordered.refl es)
  | (name, .folder inner) :: es => .folder name (Reordered.refl inner) (Reordered.refl es)

end

theorem Alike.trans {n n' n'' : Node} (h : Alike n n') (k : Alike n' n'') : Alike n n'' := by
  cases h with
  | file content => exact k
  | folder h =>
    cases k with
    | folder k => exact .folder (h.trans k)

namespace Reordered

variable {es es' : Folder}

theorem symm (h : Reordered es es') : Reordered es' es := by
  induction h with
  | nil => exact .nil
  | file name content _ ih => exact .file name content ih
  | folder name _ _ ih ihs => exact .folder name ih ihs
  | swap d e es => exact .swap e d es
  | trans _ _ ih ih' => exact ih'.trans ih

/-- Each entry of a folder is one of the other, with what it holds in another order. -/
theorem mem (h : Reordered es es') {name : Name} {n : Node} (hm : (name, n) ∈ es) :
    ∃ n', (name, n') ∈ es' ∧ Alike n n' := by
  induction h generalizing n with
  | nil => cases hm
  | @file name' content es es' _ ih =>
    rcases List.mem_cons.mp hm with he | hm
    · obtain ⟨rfl, rfl⟩ := Prod.mk.inj he
      exact ⟨_, List.mem_cons_self, .file content⟩
    · obtain ⟨n', hn, ha⟩ := ih hm
      exact ⟨n', List.mem_cons_of_mem _ hn, ha⟩
  | folder name' hin _ _ ih =>
    rcases List.mem_cons.mp hm with he | hm
    · obtain ⟨rfl, rfl⟩ := Prod.mk.inj he
      exact ⟨_, List.mem_cons_self, .folder hin⟩
    · obtain ⟨n', hn, ha⟩ := ih hm
      exact ⟨n', List.mem_cons_of_mem _ hn, ha⟩
  | swap d e es =>
    refine ⟨n, ?_, .refl n⟩
    rcases List.mem_cons.mp hm with rfl | hm
    · simp
    · rcases List.mem_cons.mp hm with rfl | hm
      · simp
      · simp [hm]
  | trans _ _ ih ih' =>
    obtain ⟨n', hn, ha⟩ := ih hm
    obtain ⟨n'', hn', ha'⟩ := ih' hn
    exact ⟨n'', hn', ha.trans ha'⟩

theorem proper (h : Reordered es es') (hp : entriesAreProper es = true) :
    entriesAreProper es' = true := by
  induction h with
  | nil => rfl
  | file name content h ih =>
    obtain ⟨h1, h2, h3, h4⟩ := entriesAreProper_cons.mp hp
    refine entriesAreProper_cons.mpr ⟨h1, ?_, h3, ih h4⟩
    rintro ⟨name', n'⟩ hm rfl
    obtain ⟨n, hn, -⟩ := h.symm.mem hm
    exact h2 _ hn rfl
  | folder name _ h ih ihs =>
    obtain ⟨h1, h2, h3, h4⟩ := entriesAreProper_cons.mp hp
    refine entriesAreProper_cons.mpr ⟨h1, ?_, ih h3, ihs h4⟩
    rintro ⟨name', n'⟩ hm rfl
    obtain ⟨n, hn, -⟩ := h.symm.mem hm
    exact h2 _ hn rfl
  | swap d e es =>
    obtain ⟨h1, h2, h3, h4⟩ := entriesAreProper_cons.mp hp
    obtain ⟨k1, k2, k3, k4⟩ := entriesAreProper_cons.mp h4
    obtain ⟨hde, hd⟩ := List.forall_mem_cons.mp h2
    exact entriesAreProper_cons.mpr ⟨k1, List.forall_mem_cons.mpr ⟨Ne.symm hde, k2⟩, k3,
      entriesAreProper_cons.mpr ⟨h1, hd, h3, k4⟩⟩
  | trans _ _ ih ih' => exact ih' (ih hp)

theorem child? (h : Reordered es es') (hp : entriesAreProper es = true) (name : Name) :
    Option.Rel Alike (child? es name) (child? es' name) := by
  have hp' := h.proper hp
  cases hc : Files.child? es name with
  | some n =>
    obtain ⟨n', hn', ha⟩ := h.mem ((child?_eq_some_iff hp).mp hc)
    rw [(child?_eq_some_iff hp').mpr hn']
    exact .some ha
  | none =>
    cases hc' : Files.child? es' name with
    | none => exact .none
    | some n' =>
      obtain ⟨n, hn, -⟩ := h.symm.mem ((child?_eq_some_iff hp').mp hc')
      rw [(child?_eq_some_iff hp).mpr hn] at hc
      cases hc

end Reordered

/-! ## 2. Ignore files -/

theorem rulesOf_alike {n n' : Option Node} (h : Option.Rel Alike n n') :
    rulesOf n = rulesOf n' := by
  cases h with
  | none => rfl
  | some h => cases h <;> rfl

theorem isSome_alike {n n' : Option Node} (h : Option.Rel Alike n n') :
    n.isSome = n'.isSome := by
  cases h <;> rfl

theorem descend_alike {n n' : Option Node} (h : Option.Rel Alike n n')
    (hp : ∀ m ∈ n, m.isProper = true) (names : List Name) :
    Option.Rel Alike (descend names n) (descend names n') := by
  induction names generalizing n n' with
  | nil =>
    cases h with
    | none => exact .none
    | some h => exact .some h
  | cons name names ih =>
    cases h with
    | none => exact .none
    | some h =>
      cases h with
      | file content => exact .none
      | @folder es es' h =>
        have hes : entriesAreProper es = true := hp _ rfl
        refine ih (h.child? hes name) fun m hm => ?_
        exact (proper_of_mem hes ((child?_eq_some_iff hes).mp hm)).2

/-- What a folder says does not depend on the order of its entries. -/
theorem ofFolder_reordered {es es' : Folder} (h : Reordered es es')
    (hp : entriesAreProper es = true) : IgnoreLevel.ofFolder es = IgnoreLevel.ofFolder es' := by
  have hgit := h.child? hp (nameOf ".git")
  have hexc := descend_alike hgit
    (fun m hm => (proper_of_mem hp ((child?_eq_some_iff hp).mp hm)).2)
    [nameOf "info", nameOf "exclude"]
  rw [IgnoreLevel.ofFolder, IgnoreLevel.ofFolder, rulesOf_alike (h.child? hp _),
    rulesOf_alike (h.child? hp (nameOf ".gitignore")), rulesOf_alike hexc,
    isSome_alike hgit]

theorem levelsAbove_alike {above above' : List (Folder × Name)}
    (h : List.Forall₂ (fun a b => Reordered a.1 b.1 ∧ a.2 = b.2) above above')
    (hp : ∀ a ∈ above, entriesAreProper a.1 = true ∧ Path.isName a.2 = true) (way : List Name) :
    levelsAbove way above = levelsAbove way above' := by
  induction h generalizing way with
  | nil => rfl
  | @cons a b above above' hab _ ih =>
    obtain ⟨es, name⟩ := a
    obtain ⟨es', name'⟩ := b
    obtain ⟨⟨hes, -⟩, hall⟩ := List.forall_mem_cons.mp hp
    obtain ⟨h1, rfl⟩ := hab
    rw [levelsAbove, levelsAbove, ofFolder_reordered h1 hes, ih hall]

/-! ## 3. Paths -/

variable {t t' : FileTree}

theorem Spot.Alike.step {s s' v : Spot} (h : s.Alike s') (hs : s.IsProper) {piece : Name}
    (hv : s.Step piece v) : ∃ v', s'.Step piece v' ∧ v.Alike v' := by
  obtain ⟨node', above'⟩ := s'
  obtain ⟨hnode, habove⟩ := h
  cases hv with
  | stay hstay =>
    cases hnode with
    | folder hes => exact ⟨_, .stay hstay, .folder hes, habove⟩
  | up =>
    cases hnode with
    | folder hes =>
      cases habove with
      | cons hab habove => exact ⟨_, .up, .folder hab.1, habove⟩
  | @down es above piece n h1 h2 h3 hc =>
    cases hnode with
    | @folder es es' hes =>
      have hr := hes.child? (hs.entries rfl) piece
      rw [hc] at hr
      cases hc' : child? es' piece with
      | none =>
        rw [hc'] at hr
        cases hr
      | some n' =>
        rw [hc'] at hr
        cases hr with
        | some ha =>
          have habove' : List.Forall₂ (fun a b => Reordered a.1 b.1 ∧ a.2 = b.2)
              ((es, piece) :: above) ((es', piece) :: above') := .cons ⟨hes, rfl⟩ habove
          exact ⟨_, .down h1 h2 h3 hc', ha, habove'⟩

/-- Following the pieces of a path does not depend on the order of entries. -/
theorem Spot.Alike.follow {s s' u : Spot} (h : s.Alike s') (hs : s.IsProper) {ps : List Name}
    (hf : s.follow ps = .ok u) : ∃ u', s'.follow ps = .ok u' ∧ u.Alike u' := by
  induction ps generalizing s s' with
  | nil =>
    obtain rfl := Except.ok.inj hf
    exact ⟨s', rfl, h⟩
  | cons piece ps ih =>
    obtain ⟨v, hv, hf⟩ := Spot.follow_cons_eq_ok_iff.mp hf
    obtain ⟨v', hv', ha⟩ := h.step hs hv
    obtain ⟨u', hf', hu⟩ := ih ha (hs.step hv) hf
    exact ⟨u', Spot.follow_cons_eq_ok_iff.mpr ⟨v', hv', hf'⟩, hu⟩

theorem spot_reordered (h : Reordered t.entries t'.entries) {p : Path} {s : Spot}
    (hs : t.spot p = .ok s) : ∃ s', t'.spot p = .ok s' ∧ s.Alike s' := by
  obtain ⟨h1, h2, hf⟩ := spot_eq_ok hs
  have htop : t.top.Alike t'.top := ⟨.folder h, .nil⟩
  obtain ⟨s', hf', ha⟩ := htop.follow t.isProper_top hf
  exact ⟨s', spot_of_follow h1 h2 hf', ha⟩

/-! ## 4. Walks -/

theorem visitEntries_perm {es es' : Folder} (h : Reordered es es')
    (hp : entriesAreProper es = true) (levels : List IgnoreLevel) (path : Path) :
    (visitEntries levels path es).Perm (visitEntries levels path es') := by
  induction h generalizing levels path with
  | nil => exact .refl _
  | file name content _ ih =>
    obtain ⟨-, -, -, h4⟩ := entriesAreProper_cons.mp hp
    rw [visitEntries, visitEntries]
    exact (ih h4 levels path).append_left _
  | @folder name inner inner' es es' hin _ ihin ih =>
    obtain ⟨-, -, h3, h4⟩ := entriesAreProper_cons.mp hp
    rw [visitEntries, visitEntries]
    refine List.Perm.append ?_ (ih h4 levels path)
    rw [show (Node.folder inner).isFolder = (Node.folder inner').isFolder from rfl]
    split
    · exact .refl _
    · rw [visit, visit, ofFolder_reordered hin h3]
      exact (ihin h3 _ _).cons _
  | swap d e es =>
    obtain ⟨name, n⟩ := d
    obtain ⟨name', n'⟩ := e
    rw [visitEntries, visitEntries, visitEntries, visitEntries]
    exact List.perm_append_comm_assoc _ _ _
  | trans hle _ ih ih' => exact (ih hp levels path).trans (ih' (hle.proper hp) levels path)

/-- A walk visits the same paths in any order. -/
theorem visit_perm {n n' : Node} (h : Alike n n') (hp : n.isProper = true)
    (levels : List IgnoreLevel) (path : Path) :
    (visit levels path n).Perm (visit levels path n') := by
  cases h with
  | file content => exact .refl _
  | folder h =>
    rw [visit, visit, ofFolder_reordered h hp]
    exact (visitEntries_perm h hp _ _).cons _

/-- What a walk visits does not depend on the order in which folders enumerate their entries. -/
theorem visits_reordered (h : Reordered t.entries t'.entries) {root : Path}
    {vs : List (Path × Bool)} (hv : visits t root = .ok vs) :
    ∃ vs', visits t' root = .ok vs' ∧ vs.Perm vs' := by
  rcases visits_eq_ok_iff.mp hv with ⟨hr, rfl⟩ | ⟨hr, s, hs, rfl⟩
  · exact ⟨_, visits_eq_ok_iff.mpr (.inl ⟨hr, rfl⟩), .refl _⟩
  · obtain ⟨s', hs', ha⟩ := spot_reordered h hs
    have hs := (in_of_spot hs).isProper
    refine ⟨_, visits_eq_ok_iff.mpr (.inr ⟨hr, s', hs', rfl⟩), ?_⟩
    rw [← levelsAbove_alike ha.above hs.above]
    exact visit_perm ha.node hs.node _ _

end MarkupLint.Files
