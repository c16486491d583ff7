import MarkupLint.Text.Utf8

/-!
# Paths

A path names a file by bytes, which need not be text. Two paths are the same, and are compared, by
their components: repeated and final slashes do not count, nor do dots other than the first.
-/

namespace MarkupLint

/-! ## Order of lists -/

/-- The first list comes before the second one, or is the same, where the first difference decides
and a list comes before those that it begins. -/
def lexLe [DecidableEq α] (le : α → α → Bool) : List α → List α → Bool
  | [], _ => true
  | _ :: _, [] => false
  | a :: as, b :: bs => if a = b then lexLe le as bs else le a b

section Lexicographic

variable [DecidableEq α] {le : α → α → Bool}

theorem lexLe_total (total : ∀ a b, le a b || le b a) (as bs : List α) :
    lexLe le as bs || lexLe le bs as := by
  induction as generalizing bs with
  | nil => rfl
  | cons a as ih =>
    cases bs with
    | nil => rfl
    | cons b bs =>
      by_cases h : a = b
      · simpa [lexLe, h] using ih bs
      · simpa [lexLe, h, Ne.symm h] using total a b

theorem lexLe_antisymm (antisymm : ∀ a b, le a b → le b a → a = b) {as bs : List α}
    (h : lexLe le as bs) (k : lexLe le bs as) : as = bs := by
  induction as generalizing bs with
  | nil => cases bs <;> simp_all [lexLe]
  | cons a as ih =>
    cases bs with
    | nil => simp [lexLe] at h
    | cons b bs =>
      by_cases e : a = b
      · simp only [lexLe, e] at h k
        rw [e, ih h k]
      · simp only [lexLe, e, Ne.symm e, if_false] at h k
        exact absurd (antisymm a b h k) e

theorem lexLe_trans (antisymm : ∀ a b, le a b → le b a → a = b)
    (trans : ∀ a b c, le a b → le b c → le a c) {as bs cs : List α}
    (h : lexLe le as bs) (k : lexLe le bs cs) : lexLe le as cs := by
  induction as generalizing bs cs with
  | nil => rfl
  | cons a as ih =>
    cases bs with
    | nil => simp [lexLe] at h
    | cons b bs =>
      cases cs with
      | nil => simp [lexLe] at k
      | cons c cs =>
        by_cases ab : a = b
        · by_cases bc : b = c
          · simp only [lexLe, ab, bc] at h k ⊢
            exact ih h k
          · simp_all [lexLe]
        · by_cases bc : b = c
          · simp_all [lexLe]
          · simp only [lexLe, ab, bc, if_false] at h k
            by_cases ac : a = c
            · exact absurd (antisymm a b h (ac ▸ k)) ab
            · simpa [lexLe, ac] using trans a b c h k

end Lexicographic

/-! ## Paths -/

/-- A path. -/
structure Path where
  bytes : List UInt8
deriving DecidableEq, Repr

namespace Path

/-- The byte that separates the pieces of a path. -/
def slash : UInt8 := 0x2F

/-- The piece that stands for the folder itself. -/
def dot : List UInt8 := [0x2E]

/-- The piece that stands for the folder above. -/
def dotDot : List UInt8 := [0x2E, 0x2E]

/-- The path that a text spells. -/
def ofText (s : List Char) : Path := ⟨Text.utf8 s⟩

def ofString (s : String) : Path := ofText s.toList

/-- The text that spells the path, if there is one. -/
def text? (p : Path) : Option (List Char) := Text.ofUtf8? p.bytes

/-- The path as it is shown. -/
def shown (p : Path) : List Char := Text.ofUtf8 p.bytes

/-- Cuts bytes at slashes; `piece` holds the current piece in reverse. -/
def piecesFrom (piece : List UInt8) : List UInt8 → List (List UInt8)
  | [] => [piece.reverse]
  | b :: s => if b = slash then piece.reverse :: piecesFrom [] s else piecesFrom (b :: piece) s

/-- The pieces between the slashes of a path. -/
def pieces (p : Path) : List (List UInt8) := piecesFrom [] p.bytes

theorem slash_not_mem_piecesFrom {piece s : List UInt8} (h : slash ∉ piece) :
    ∀ name ∈ piecesFrom piece s, slash ∉ name := by
  induction s generalizing piece with
  | nil => simpa [piecesFrom] using h
  | cons b s ih =>
    rw [piecesFrom]
    split
    · have hpiece : slash ∉ piece.reverse := by simpa using h
      exact List.forall_mem_cons.mpr ⟨hpiece, ih List.not_mem_nil⟩
    · next hb =>
      have hpiece : slash ∉ b :: piece := by simp [h, Ne.symm hb]
      exact ih hpiece

/-- A name that an entry of a folder can have. -/
def isName (name : List UInt8) : Bool :=
  name != [] && name != dot && name != dotDot && !name.contains slash

theorem isName_iff {name : List UInt8} :
    isName name = true ↔ name ≠ [] ∧ name ≠ dot ∧ name ≠ dotDot ∧ slash ∉ name := by
  simp [isName, and_assoc]

/-- The path starts at the root of all files. -/
def isAbsolute (p : Path) : Bool := p.bytes.head? == some slash

/-- The parts that count of a path. -/
inductive Component where
  | root
  | here
  | up
  | name (s : List UInt8)
deriving DecidableEq, Repr

/-- The component that a piece stands for; a dot counts only at the start of a path. -/
def component? (first : Bool) (piece : List UInt8) : Option Component :=
  if piece = [] then none
  else if piece = dot then if first then some .here else none
  else if piece = dotDot then some .up
  else some (.name piece)

/-- The components of a path. -/
def components (p : Path) : List Component :=
  match p.pieces with
  | [] => []
  | piece :: ps =>
    (if p.isAbsolute then [.root] else (component? true piece).toList) ++
      ps.filterMap (component? false)

/-- Where a component stands in the order: first come the root, the dot and the two dots. -/
def Component.key : Component → List Nat
  | root => [0]
  | here => [1]
  | up => [2]
  | name s => 3 :: s.map UInt8.toNat

/-- Where a path stands in the order. -/
def key (p : Path) : List (List Nat) := p.components.map Component.key

/-- The path comes before the other one, or is the same. -/
def le (p q : Path) : Bool := lexLe (lexLe Nat.ble) p.key q.key

/-- The paths have the same components. -/
def same (p q : Path) : Bool := p.key == q.key

/-- The path of an entry of a folder. -/
def join (p : Path) (name : List UInt8) : Path :=
  if p.bytes.isEmpty ∨ p.bytes.getLast? = some slash then ⟨p.bytes ++ name⟩
  else ⟨p.bytes ++ slash :: name⟩

theorem ble_antisymm (m n : Nat) (h : Nat.ble m n) (k : Nat.ble n m) : m = n :=
  Nat.le_antisymm (Nat.le_of_ble_eq_true h) (Nat.le_of_ble_eq_true k)

theorem ble_trans (k m n : Nat) (h : Nat.ble k m) (i : Nat.ble m n) : Nat.ble k n :=
  Nat.ble_eq_true_of_le (Nat.le_trans (Nat.le_of_ble_eq_true h) (Nat.le_of_ble_eq_true i))

theorem ble_total (m n : Nat) : Nat.ble m n || Nat.ble n m := by
  simpa using Nat.le_total m n

theorem le_total (p q : Path) : p.le q || q.le p := lexLe_total (lexLe_total ble_total) p.key q.key

theorem le_trans {p q r : Path} (h : p.le q) (k : q.le r) : p.le r :=
  lexLe_trans (fun _ _ => lexLe_antisymm ble_antisymm)
    (fun _ _ _ => lexLe_trans ble_antisymm ble_trans) h k

/-- Paths that come before each other are the same. -/
theorem same_of_le {p q : Path} (h : p.le q) (k : q.le p) : p.same q := by
  simpa [same] using lexLe_antisymm (fun _ _ => lexLe_antisymm ble_antisymm) h k

end Path

end MarkupLint
