import MarkupLint.Unicode.Category
import MarkupLint.Unicode.Property

/-!
# Rule identifiers

A rule is known by a non-empty text of letters, digits, `-` and `_`. Identifiers are ordered by
their texts, code point by code point. A table keeps one value for each of its identifiers, in
ascending order of identifiers; setting a value replaces the one that was there (`get?_set`).
-/

namespace MarkupLint.Lint

/-- The characters of identifiers. -/
def isIdChar (c : Char) : Bool :=
  c.isAlphanum || c == '-' || c == '_' || Unicode.isAlphanumeric c

def isIdText (s : String) : Bool := s != "" && s.toList.all isIdChar

/-- The identifier of a rule. -/
structure RuleId where
  text : String
  valid : isIdText text
deriving DecidableEq

namespace RuleId

def ofText? (s : String) : Option RuleId := if h : isIdText s then some ⟨s, h⟩ else none

/-- What is said about a text that is no identifier. -/
def refusal (s : String) : String := s!"Invalid rule ID '{s}'"

@[ext]
theorem ext {a b : RuleId} (h : a.text = b.text) : a = b := by
  cases a
  cases b
  simp_all

theorem text_of_ofText? {s : String} {a : RuleId} (h : ofText? s = some a) : a.text = s := by
  unfold ofText? at h
  split at h
  · simp only [Option.some.injEq] at h
    simp [← h]
  · simp at h

instance : LT RuleId := ⟨fun a b => a.text < b.text⟩

instance : DecidableLT RuleId := fun a b => inferInstanceAs (Decidable (a.text < b.text))

theorem lt_irrefl (a : RuleId) : ¬a < a := String.lt_irrefl a.text

theorem lt_trans {a b c : RuleId} (h : a < b) (k : b < c) : a < c := String.lt_trans h k

theorem lt_asymm {a b : RuleId} (h : a < b) : ¬b < a := String.lt_asymm h

theorem eq_of_not_lt {a b : RuleId} (h : ¬a < b) (k : ¬b < a) : a = b :=
  ext (String.le_antisymm (String.not_lt.mp k) (String.not_lt.mp h))

end RuleId

/-! ## Tables by identifier -/

/-- Puts a value in its place among entries in ascending order. -/
def setEntry (id : RuleId) (a : α) : List (RuleId × α) → List (RuleId × α)
  | [] => [(id, a)]
  | e :: es =>
    if id < e.1 then (id, a) :: e :: es
    else if e.1 < id then e :: setEntry id a es
    else (id, a) :: es

theorem mem_setEntry {id : RuleId} {a : α} {es : List (RuleId × α)} {e : RuleId × α}
    (h : e ∈ setEntry id a es) : e = (id, a) ∨ e ∈ es := by
  induction es with
  | nil => simpa [setEntry] using h
  | cons d ds ih =>
    rw [setEntry] at h
    split at h
    · simpa using h
    · split at h
      · rcases List.mem_cons.mp h with h | h
        · simp [h]
        · rcases ih h with h | h <;> simp [h]
      · rcases List.mem_cons.mp h with h | h <;> simp [h]

theorem pairwise_setEntry {id : RuleId} {a : α} {es : List (RuleId × α)}
    (h : es.Pairwise fun d e => d.1 < e.1) :
    (setEntry id a es).Pairwise fun d e => d.1 < e.1 := by
  induction es with
  | nil => simp [setEntry]
  | cons d ds ih =>
    have ⟨hd, hds⟩ := List.pairwise_cons.mp h
    rw [setEntry]
    split
    · rename_i lt
      refine List.pairwise_cons.mpr ⟨fun e he => ?_, h⟩
      rcases List.mem_cons.mp he with rfl | he
      · exact lt
      · exact RuleId.lt_trans lt (hd e he)
    · split
      · rename_i lt
        refine List.pairwise_cons.mpr ⟨fun e he => ?_, ih hds⟩
        rcases mem_setEntry he with rfl | he
        · exact lt
        · exact hd e he
      · rename_i notLess notGreater
        have same := RuleId.eq_of_not_lt notLess notGreater
        refine List.pairwise_cons.mpr ⟨fun e he => ?_, hds⟩
        simpa [same] using hd e he

/-- A value for each of some identifiers. -/
structure IdMap (α : Type) where
  entries : List (RuleId × α)
  ascending : entries.Pairwise fun d e => d.1 < e.1

namespace IdMap

def empty : IdMap α := ⟨[], .nil⟩

def set (m : IdMap α) (id : RuleId) (a : α) : IdMap α :=
  ⟨setEntry id a m.entries, pairwise_setEntry m.ascending⟩

/-- The value under an identifier. -/
def get? (m : IdMap α) (id : RuleId) : Option α :=
  (m.entries.find? fun e => decide (e.1 = id)).map (·.2)

/-- The identifiers, in ascending order. -/
def ids (m : IdMap α) : List RuleId := m.entries.map (·.1)

def values (m : IdMap α) : List α := m.entries.map (·.2)

def size (m : IdMap α) : Nat := m.entries.length

/-- The table of a list of entries, of which the last under an identifier counts. -/
def ofList (es : List (RuleId × α)) : IdMap α := es.foldl (fun m e => m.set e.1 e.2) empty

theorem find?_setEntry (id : RuleId) (a : α) (es : List (RuleId × α)) (k : RuleId)
    (h : es.Pairwise fun d e => d.1 < e.1) :
    ((setEntry id a es).find? fun e => decide (e.1 = k)) =
      if k = id then some (id, a) else es.find? fun e => decide (e.1 = k) := by
  induction es with
  | nil => by_cases hk : k = id <;> simp [setEntry, hk, eq_comm]
  | cons d ds ih =>
    have ⟨hd, hds⟩ := List.pairwise_cons.mp h
    rw [setEntry]
    split
    · by_cases hk : k = id
      · simp [hk]
      · simp [hk, Ne.symm hk]
    · split
      · rename_i _ lt
        rw [List.find?_cons]
        by_cases hdk : d.1 = k
        · have : k ≠ id := by
            rintro rfl
            exact RuleId.lt_irrefl _ (hdk ▸ lt)
          simp [hdk, this]
        · simp only [hdk, decide_false]
          rw [ih hds, List.find?_cons]
          simp [hdk]
      · rename_i notLess notGreater
        have same := RuleId.eq_of_not_lt notLess notGreater
        by_cases hk : k = id
        · simp [hk]
        · have : ¬d.1 = k := by
            rw [← same]
            exact Ne.symm hk
          simp [hk, Ne.symm hk, this]

theorem get?_set (m : IdMap α) (id : RuleId) (a : α) (k : RuleId) :
    (m.set id a).get? k = if k = id then some a else m.get? k := by
  simp only [get?, set, find?_setEntry _ _ _ _ m.ascending]
  split <;> simp

/-- The value under an identifier is the one of its entry. -/
theorem get?_eq_some_iff {m : IdMap α} {id : RuleId} {a : α} :
    m.get? id = some a ↔ (id, a) ∈ m.entries := by
  obtain ⟨es, h⟩ := m
  simp only [get?]
  induction es with
  | nil => simp
  | cons d ds ih =>
    obtain ⟨hd, hds⟩ := List.pairwise_cons.mp h
    rw [List.find?_cons, List.mem_cons]
    by_cases hk : d.1 = id
    · subst hk
      have hn : (d.1, a) ∉ ds := fun hm => RuleId.lt_irrefl d.1 (hd (d.1, a) hm)
      simp [hn, Prod.ext_iff, eq_comm]
    · have hn : (id, a) ≠ d := by
        rintro rfl
        exact hk rfl
      simp only [hk, decide_false, hn, false_or]
      exact ih hds

end IdMap

end MarkupLint.Lint
