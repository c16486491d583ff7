import Mathlib
import MarkupLint.Files.Discovery

/-!
# Places in a tree

A path is followed from the working folder, piece by piece, to a spot of the tree. No folder holds
two entries of one name, so the names on the way down tell the spots apart: they are the place of a
file on disk, which several paths may lead to. A walk goes down from its root, so each path that it
visits leads to a spot below the root.

Results:
1. `pieces_join`, `components_join`, `components_foldl_join`: the path of an entry.
2. `In.isProper`, `In.follow`, `In.unique`: the spots of a tree.
3. `spot_join`: the path of an entry leads to the entry.
4. `Leads.spot`, `Leads.names`, `Leads.components`: the way down.
5. `visits_eq_ok_iff`, `leads_of_visit`: a walk goes down from its root.
-/

namespace MarkupLint

open Files

namespace Path

/-! ## 1. Pieces -/

theorem piecesFrom_ne_nil (piece s : List UInt8) : piecesFrom piece s ≠ [] := by
  induction s generalizing piece with
  | nil => simp [piecesFrom]
  | cons b s ih =>
    rw [piecesFrom]
    split
    · simp
    · exact ih _

theorem piecesFrom_slash (piece s t : List UInt8) :
    piecesFrom piece (s ++ slash :: t) = piecesFrom piece s ++ piecesFrom [] t := by
  induction s generalizing piece with
  | nil => simp [piecesFrom]
  | cons b s ih =>
    rw [List.cons_append, piecesFrom, piecesFrom, ih, ih]
    split <;> rfl

theorem piecesFrom_of_not_mem {name : List UInt8} (h : slash ∉ name) (piece : List UInt8) :
    piecesFrom piece name = [piece.reverse ++ name] := by
  induction name generalizing piece with
  | nil => simp [piecesFrom]
  | cons b s ih =>
    rw [List.mem_cons, not_or] at h
    obtain ⟨hb, hs⟩ := h
    rw [piecesFrom, if_neg (Ne.symm hb), ih hs]
    simp

theorem join_ne_nil (p : Path) {name : List UInt8} (h : name ≠ []) : (p.join name).bytes ≠ [] := by
  rw [join]
  split
  · simp [h]
  · simp

/-- The pieces of the path of an entry are those of the folder, without an empty one at the end, and
the name. -/
theorem pieces_join {p : Path} (hp : p.bytes ≠ []) {name : List UInt8} (hn : slash ∉ name) :
    ∃ ps, (p.join name).pieces = ps ++ [name] ∧ ps ≠ [] ∧
      (p.pieces = ps ∨ p.pieces = ps ++ [[]]) := by
  have hname : piecesFrom [] name = [name] := piecesFrom_of_not_mem hn []
  have hemp : p.bytes.isEmpty = false := List.isEmpty_eq_false_iff.mpr hp
  rw [join, hemp]
  by_cases hl : p.bytes.getLast? = some slash
  · obtain ⟨s, hs⟩ := List.getLast?_eq_some_iff.mp hl
    refine ⟨piecesFrom [] s, ?_, piecesFrom_ne_nil _ _, Or.inr ?_⟩
    · rw [if_pos (Or.inr hl), pieces, hs, List.append_assoc, List.singleton_append,
        piecesFrom_slash, hname]
    · rw [pieces, hs, piecesFrom_slash]
      rfl
  · refine ⟨p.pieces, ?_, piecesFrom_ne_nil _ _, Or.inl rfl⟩
    rw [if_neg (by simp [hl]), pieces, piecesFrom_slash, hname]
    rfl

theorem isAbsolute_join {p : Path} (hp : p.bytes ≠ []) (name : List UInt8) :
    (p.join name).isAbsolute = p.isAbsolute := by
  obtain ⟨b, s, hs⟩ := List.exists_cons_of_ne_nil hp
  rw [join, isAbsolute, isAbsolute, hs]
  split <;> rfl

theorem component?_of_isName {name : List UInt8} (h : isName name = true) (first : Bool) :
    component? first name = some (.name name) := by
  obtain ⟨h1, h2, h3, -⟩ := isName_iff.mp h
  rw [component?, if_neg h1, if_neg h2, if_neg h3]

theorem components_join {p : Path} (hp : p.bytes ≠ []) {name : List UInt8}
    (hn : isName name = true) : (p.join name).components = p.components ++ [.name name] := by
  obtain ⟨-, -, -, hs⟩ := isName_iff.mp hn
  obtain ⟨ps, hj, hne, hps⟩ := pieces_join hp hs
  obtain ⟨piece, ps, rfl⟩ := List.exists_cons_of_ne_nil hne
  have he : component? false [] = none := rfl
  have hcomp : p.components =
      (if p.isAbsolute then [.root] else (component? true piece).toList) ++
        ps.filterMap (component? false) := by
    rw [components]
    rcases hps with h | h
    · rw [h]
    · simp [h, he]
  rw [hcomp, components, hj, isAbsolute_join hp]
  simp [component?_of_isName hn]

theorem components_foldl_join {p : Path} (hp : p.bytes ≠ []) {names : List (List UInt8)}
    (hn : ∀ name ∈ names, isName name = true) :
    (names.foldl join p).components = p.components ++ names.map .name := by
  induction names generalizing p with
  | nil => simp
  | cons name names ih =>
    obtain ⟨hname, hn⟩ := List.forall_mem_cons.mp hn
    rw [List.foldl_cons, ih (join_ne_nil p (isName_iff.mp hname).1) hn,
      components_join hp hname]
    simp

theorem pieces_name {name : List UInt8} (h : isName name = true) : pieces ⟨name⟩ = [name] :=
  piecesFrom_of_not_mem (isName_iff.mp h).2.2.2 []

theorem isAbsolute_name {name : List UInt8} (h : isName name = true) :
    isAbsolute ⟨name⟩ = false := by
  obtain ⟨h1, -, -, h4⟩ := isName_iff.mp h
  obtain ⟨b, s, rfl⟩ := List.exists_cons_of_ne_nil h1
  rw [List.mem_cons, not_or] at h4
  simp [isAbsolute, Ne.symm h4.1]

end Path

namespace Files

/-! ## 2. Spots -/

/-- The names that lead from the working folder to the spot. -/
def Spot.names (s : Spot) : List Name := (s.above.map (·.2)).reverse

/-- The spot lies in the tree. -/
inductive Spot.In (t : FileTree) : Spot → Prop
  | top : t.top.In t
  | down {s : Spot} {es : Folder} {name : Name} {n : Node} :
      s.In t → s.node = .folder es → (name, n) ∈ es → Spot.In t ⟨n, (es, name) :: s.above⟩

end Files

/-- The place that a path leads to, by the names on the way down from the working folder. -/
def FileTree.place? (t : FileTree) (p : Path) : Option (List Name) :=
  (t.spot p).toOption.map Spot.names

namespace Files

namespace Spot

variable {t : FileTree} {s : Spot}

@[simp]
theorem names_top (t : FileTree) : t.top.names = [] := rfl

@[simp]
theorem names_down (s : Spot) (n : Node) (es : Folder) (name : Name) :
    (Spot.mk n ((es, name) :: s.above)).names = s.names ++ [name] := by
  rw [names, List.map_cons, List.reverse_cons, names]

theorem In.isProper (h : s.In t) : s.IsProper := by
  induction h with
  | top => exact t.isProper_top
  | down _ hs hm ih => exact ih.down hs hm

theorem In.entries (h : s.In t) {es : Folder} (hs : s.node = .folder es) :
    entriesAreProper es = true :=
  h.isProper.entries hs

theorem In.isName (h : s.In t) : ∀ name ∈ s.names, Path.isName name = true := by
  intro name hn
  obtain ⟨a, ha, rfl⟩ := List.mem_map.mp (List.mem_reverse.mp hn)
  exact (h.isProper.above a ha).2

theorem follow_append_eq_ok_iff {u : Spot} {ps qs : List Name} :
    s.follow (ps ++ qs) = .ok u ↔ ∃ v, s.follow ps = .ok v ∧ v.follow qs = .ok u := by
  induction ps generalizing s with
  | nil => simp [follow]
  | cons piece ps ih =>
    rw [List.cons_append, follow_cons_eq_ok_iff]
    constructor
    · rintro ⟨v, hv, h⟩
      obtain ⟨w, hw, h⟩ := ih.mp h
      exact ⟨w, follow_cons_eq_ok_iff.mpr ⟨v, hv, hw⟩, h⟩
    · rintro ⟨w, hw, h⟩
      obtain ⟨v, hv, hw⟩ := follow_cons_eq_ok_iff.mp hw
      exact ⟨v, hv, ih.mpr ⟨w, hw, h⟩⟩

/-- The folder above a spot is the one from which the spot was entered. -/
theorem In.up {n : Node} {a : Folder × Name} {above : List (Folder × Name)}
    (h : Spot.In t ⟨n, a :: above⟩) : Spot.In t ⟨.folder a.1, above⟩ := by
  cases h with
  | down hup hnode _ =>
    rw [← hnode]
    exact hup

theorem In.step {v : Spot} (h : s.In t) {piece : Name} (hv : s.Step piece v) : v.In t := by
  cases hv with
  | stay _ => exact h
  | up => exact h.up
  | down _ _ _ hc => exact h.down rfl ((child?_eq_some_iff (h.entries rfl)).mp hc)

/-- Following a path one does not leave the tree. -/
theorem In.follow {u : Spot} (h : s.In t) {ps : List Name} (hf : s.follow ps = .ok u) :
    u.In t := by
  induction ps generalizing s with
  | nil =>
    obtain rfl := Except.ok.inj hf
    exact h
  | cons piece ps ih =>
    obtain ⟨v, hv, hf⟩ := follow_cons_eq_ok_iff.mp hf
    exact ih (h.step hv) hf

/-- Names determine the spot. -/
theorem In.unique {s' : Spot} (h : s.In t) (h' : s'.In t) (hn : s.names = s'.names) : s = s' := by
  induction h generalizing s' with
  | top =>
    cases h' with
    | top => rfl
    | down => simp at hn
  | @down s es name n hs hes hm ih =>
    cases h' with
    | top => simp at hn
    | @down u us name' n' hu hus hm' =>
      rw [names_down, names_down] at hn
      obtain ⟨hsu, hnn⟩ := List.append_inj' hn rfl
      obtain rfl := List.singleton_inj.mp hnn
      obtain rfl := ih hu hsu
      rw [hes] at hus
      obtain rfl := Node.folder.inj hus
      have hp := hs.entries hes
      have hc := (child?_eq_some_iff hp).mpr hm
      rw [(child?_eq_some_iff hp).mpr hm'] at hc
      rw [Option.some.inj hc]

end Spot

/-! ## 3. The path of an entry -/

variable {t : FileTree} {s : Spot}

theorem spot_eq_ok {p : Path} (h : t.spot p = .ok s) :
    p.bytes ≠ [] ∧ p.isAbsolute = false ∧ t.top.follow p.pieces = .ok s := by
  unfold FileTree.spot at h
  split at h
  · cases h
  · next hn =>
    rw [Bool.or_eq_true, not_or, List.isEmpty_iff, Bool.not_eq_true] at hn
    exact ⟨hn.1, hn.2, h⟩

theorem spot_of_follow {p : Path} (h1 : p.bytes ≠ []) (h2 : p.isAbsolute = false)
    (h3 : t.top.follow p.pieces = .ok s) : t.spot p = .ok s := by
  rw [FileTree.spot, if_neg, h3]
  rw [Bool.or_eq_true, not_or, List.isEmpty_iff, Bool.not_eq_true]
  exact ⟨h1, h2⟩

theorem in_of_spot {p : Path} (h : t.spot p = .ok s) : s.In t := by
  obtain ⟨-, -, hf⟩ := spot_eq_ok h
  exact Spot.In.top.follow hf

theorem Spot.follow_name {es : Folder} (hs : s.node = .folder es)
    (hes : entriesAreProper es = true) {name : Name} {n : Node} (hm : (name, n) ∈ es) :
    s.follow [name] = .ok ⟨n, (es, name) :: s.above⟩ := by
  obtain ⟨hname, -⟩ := proper_of_mem hes hm
  obtain ⟨h1, h2, h3, -⟩ := Path.isName_iff.mp hname
  have hc := (child?_eq_some_iff hes).mpr hm
  obtain ⟨node, above⟩ := s
  obtain rfl : node = .folder es := hs
  exact Spot.follow_cons_eq_ok_iff.mpr ⟨_, .down h1 h2 h3 hc, rfl⟩

/-- The path of an entry of a folder leads to the entry. -/
theorem spot_join {p : Path} (h : t.spot p = .ok s) {es : Folder} (hs : s.node = .folder es)
    {name : Name} {n : Node} (hm : (name, n) ∈ es) :
    t.spot (p.join name) = .ok ⟨n, (es, name) :: s.above⟩ := by
  obtain ⟨hp, ha, hf⟩ := spot_eq_ok h
  have hes := (in_of_spot h).entries hs
  obtain ⟨hname, -⟩ := proper_of_mem hes hm
  obtain ⟨h1, -, -, h4⟩ := Path.isName_iff.mp hname
  obtain ⟨ps, hj, -, hps⟩ := Path.pieces_join hp h4
  have hstep := Spot.follow_name hs hes hm
  refine spot_of_follow (Path.join_ne_nil p h1) (by rw [Path.isAbsolute_join hp, ha]) ?_
  rw [hj, Spot.follow_append_eq_ok_iff]
  refine ⟨s, ?_, hstep⟩
  rcases hps with hps | hps
  · rw [← hps, hf]
  · -- the empty piece at the end of the path of a folder leads nowhere else
    rw [hps, Spot.follow_append_eq_ok_iff] at hf
    obtain ⟨u, hu, hf⟩ := hf
    obtain ⟨v, hv, hf⟩ := Spot.follow_cons_eq_ok_iff.mp hf
    obtain rfl := Except.ok.inj hf
    cases hv with
    | stay _ => exact hu
    | down h1 => exact absurd rfl h1

/-! ## 4. The way down -/

/-- One goes from the first path and spot down to the second. -/
inductive Leads : Path → Spot → Path → Spot → Prop
  | here (p : Path) (s : Spot) : Leads p s p s
  | down {p q : Path} {s u : Spot} {es : Folder} {name : Name} {n : Node} :
      s.node = .folder es → (name, n) ∈ es →
      Leads (p.join name) ⟨n, (es, name) :: s.above⟩ q u → Leads p s q u

namespace Leads

variable {p q : Path} {u : Spot}

theorem spot (h : Leads p s q u) (hp : t.spot p = .ok s) : t.spot q = .ok u := by
  induction h with
  | here p s => exact hp
  | down hs hm _ ih => exact ih (spot_join hp hs hm)

/-- The names on the way down are put behind the names, the path and the components. -/
theorem names (h : Leads p s q u) :
    ∃ names, u.names = s.names ++ names ∧ q = names.foldl Path.join p := by
  induction h with
  | here p s => exact ⟨[], by simp, rfl⟩
  | @down p q s u es name n hs hm _ ih =>
    obtain ⟨names, hn, hq⟩ := ih
    refine ⟨name :: names, ?_, hq⟩
    rw [hn, Spot.names_down, List.append_assoc, List.singleton_append]

theorem components (h : Leads p s q u) (hp : t.spot p = .ok s) :
    ∃ names, u.names = s.names ++ names ∧ q.components = p.components ++ names.map .name := by
  obtain ⟨names, hn, hq⟩ := h.names
  have hname := (in_of_spot (h.spot hp)).isName
  rw [hn, List.forall_mem_append] at hname
  refine ⟨names, hn, ?_⟩
  rw [hq, Path.components_foldl_join (spot_eq_ok hp).1 hname.2]

end Leads

/-! ## 5. Walks -/

theorem visits_eq_ok_iff {root : Path} {vs : List (Path × Bool)} :
    visits t root = .ok vs ↔
      root.same standardInput = true ∧ vs = [(.ofString "<stdin>", false)] ∨
      root.same standardInput = false ∧ ∃ s, t.spot root = .ok s ∧
        vs = visit (levelsAbove [] s.above) root s.node := by
  rw [visits]
  cases root.same standardInput with
  | true => simp [eq_comm]
  | false =>
    cases t.spot root with
    | error e => simp [Except.map]
    | ok s => simp [Except.map, eq_comm]

mutual

/-- What a walk visits lies below its root. -/
theorem leads_of_visit : (n : Node) → ∀ {levels : List IgnoreLevel} {p q : Path} {b : Bool}
    {above : List (Folder × Name)}, (q, b) ∈ visit levels p n →
      ∃ u, Leads p ⟨n, above⟩ q u ∧ b = u.node.isFile
  | .file content, levels, p, q, b, above, h => by
    rw [visit, List.mem_singleton] at h
    obtain ⟨rfl, rfl⟩ := Prod.mk.inj h
    exact ⟨_, .here q _, rfl⟩
  | .folder es, levels, p, q, b, above, h => by
    rw [visit] at h
    rcases List.mem_cons.mp h with h | h
    · obtain ⟨rfl, rfl⟩ := Prod.mk.inj h
      exact ⟨_, .here q _, rfl⟩
    · obtain ⟨name, n, hm, u, hl, hb⟩ := leads_of_visitEntries es h
      exact ⟨u, .down rfl hm hl, hb⟩

theorem leads_of_visitEntries : (es : List (Name × Node)) → ∀ {levels : List IgnoreLevel}
    {p q : Path} {b : Bool} {whole : Folder} {above : List (Folder × Name)},
    (q, b) ∈ visitEntries levels p es → ∃ name n, (name, n) ∈ es ∧
      ∃ u, Leads (p.join name) ⟨n, (whole, name) :: above⟩ q u ∧ b = u.node.isFile
  | [], levels, p, q, b, whole, above, h => by
    cases h
  | (name, n) :: es, levels, p, q, b, whole, above, h => by
    rw [visitEntries] at h
    rcases List.mem_append.mp h with h | h
    · split at h
      · cases h
      · obtain ⟨u, hl, hb⟩ := leads_of_visit n h
        exact ⟨name, n, List.mem_cons_self, u, hl, hb⟩
    · obtain ⟨name', n', hm, u, hl, hb⟩ := leads_of_visitEntries es h
      exact ⟨name', n', List.mem_cons_of_mem _ hm, u, hl, hb⟩

end

end Files

end MarkupLint
