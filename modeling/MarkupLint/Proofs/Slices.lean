import MarkupLint.Text.Basic
import MarkupLint.Text.Split
import MarkupLint.Text.Utf8

/-!
# Byte offsets and slices

A program that keeps its text in UTF-8 names places by byte offsets. A slice is sound only if both
of its offsets stand between two characters and are in order; `slice` checks that and reports the
slice otherwise. The searches return byte offsets.

Results:
1. `splitAtByte_eq_some_iff`, `slice_eq_ok_iff`: a slice is sound exactly if its two offsets are the
   lengths of two prefixes of the text, one of the other.
2. `findOffset_eq`: a search from the front finds where `breakSuffix` splits.
3. `lastOffset_all_iff`: the last offset of a character is behind a place exactly if the character
   does not follow it.
4. `findWindow_eq`: a search through the bytes for a needle in ASCII finds no other places than a
   search through the characters.
-/

namespace MarkupLint.Text

/-! ## Definitions -/

/-- The length of a text in bytes. -/
def byteLength : List Char → Nat
  | [] => 0
  | c :: s => c.utf8Size + byteLength s

/-- The two sides of a byte offset; `none` if it stands inside a character or behind the end. -/
def splitAtByte : List Char → Nat → Option (List Char × List Char)
  | s, 0 => some ([], s)
  | [], _ + 1 => none
  | c :: s, n + 1 =>
    if c.utf8Size ≤ n + 1 then
      (splitAtByte s (n + 1 - c.utf8Size)).map fun r => (c :: r.1, r.2)
    else none

/-- A slice that is out of order, inside a character or behind the end. -/
structure BadSlice where
  start : Nat
  stop : Nat
deriving DecidableEq, Repr

/-- The text between two byte offsets. -/
def slice (s : List Char) (start stop : Nat) : Except BadSlice (List Char) :=
  match splitAtByte s stop with
  | none => .error ⟨start, stop⟩
  | some (a, _) =>
    match if start ≤ stop then splitAtByte a start else none with
    | none => .error ⟨start, stop⟩
    | some (_, m) => .ok m

def sliceFrom (s : List Char) (start : Nat) : Except BadSlice (List Char) :=
  slice s start (byteLength s)

def sliceTo (s : List Char) (stop : Nat) : Except BadSlice (List Char) := slice s 0 stop

/-- The text starts with a character that passes the test. -/
def atChar (test : Char → Bool) (s : List Char) : Bool := s.head?.any test

/-- The offset of the first place where the text passes the test. -/
def findOffset (test : List Char → Bool) : List Char → Option Nat
  | [] => none
  | c :: s => if test (c :: s) then some 0 else (findOffset test s).map (· + c.utf8Size)

def lastOffset (c : Char) : List Char → Option Nat
  | [] => none
  | d :: s =>
    match lastOffset c s with
    | some n => some (n + d.utf8Size)
    | none => if d = c then some 0 else none

def lowerByte (b : UInt8) : UInt8 := if 65 ≤ b ∧ b ≤ 90 then b + 32 else b

/-- Equality of bytes up to ASCII case. -/
def sameBytesIgnoringCase (x y : List UInt8) : Bool := x.map lowerByte == y.map lowerByte

/-- The offset of the first window that is the needle, up to ASCII case. -/
def findWindow (needle : List UInt8) : List UInt8 → Option Nat
  | [] => none
  | b :: s =>
    if sameBytesIgnoringCase needle ((b :: s).take needle.length) then some 0
    else (findWindow needle s).map (· + 1)

/-! ## 1. Slices -/

@[simp]
theorem byteLength_nil : byteLength [] = 0 := rfl

@[simp]
theorem byteLength_cons (c : Char) (s : List Char) :
    byteLength (c :: s) = c.utf8Size + byteLength s := rfl

@[simp]
theorem byteLength_append (s t : List Char) :
    byteLength (s ++ t) = byteLength s + byteLength t := by
  induction s with
  | nil => simp
  | cons c s ih => rw [List.cons_append, byteLength_cons, byteLength_cons, ih, Nat.add_assoc]

theorem byteLength_pos {s : List Char} (h : s ≠ []) : 0 < byteLength s := by
  cases s with
  | nil => exact absurd rfl h
  | cons c s =>
    rw [byteLength_cons]
    exact Nat.lt_of_lt_of_le c.utf8Size_pos (Nat.le_add_right _ _)

theorem byteLength_eq_zero_iff {s : List Char} : byteLength s = 0 ↔ s = [] := by
  constructor
  · intro h
    cases s with
    | nil => rfl
    | cons c s => exact absurd h (Nat.pos_iff_ne_zero.mp (byteLength_pos (by simp)))
  · rintro rfl
    rfl

/-- The two sides of an offset make up the text, and the offset is the length of the first. -/
theorem parts_of_splitAtByte {s a b : List Char} {n : Nat} (h : splitAtByte s n = some (a, b)) :
    a ++ b = s ∧ byteLength a = n := by
  induction s generalizing n a with
  | nil =>
    cases n with
    | zero =>
      cases h
      exact ⟨rfl, rfl⟩
    | succ n => cases h
  | cons c s ih =>
    cases n with
    | zero =>
      cases h
      exact ⟨rfl, rfl⟩
    | succ n =>
      rw [splitAtByte] at h
      split at h
      · next hle =>
        obtain ⟨⟨a', b'⟩, h', he⟩ := Option.map_eq_some_iff.mp h
        simp only [Prod.mk.injEq] at he
        obtain ⟨rfl, rfl⟩ := he
        obtain ⟨hp, hl⟩ := ih h'
        refine ⟨by rw [List.cons_append, hp], ?_⟩
        rw [byteLength_cons]
        omega
      · cases h

/-- The length of a prefix is an offset between two characters. -/
theorem splitAtByte_append (a b : List Char) :
    splitAtByte (a ++ b) (byteLength a) = some (a, b) := by
  induction a with
  | nil => rw [List.nil_append, byteLength_nil, splitAtByte]
  | cons c a ih =>
    have hc := c.utf8Size_pos
    obtain ⟨n, hn⟩ : ∃ n, byteLength (c :: a) = n + 1 :=
      Nat.exists_eq_add_one.mpr (byteLength_pos (List.cons_ne_nil c a))
    have hle : c.utf8Size ≤ n + 1 := by
      rw [← hn, byteLength_cons]
      omega
    have hrest : n + 1 - c.utf8Size = byteLength a := by
      rw [← hn, byteLength_cons]
      omega
    rw [hn, List.cons_append, splitAtByte, if_pos hle, hrest, ih]
    rfl

theorem splitAtByte_eq_some_iff {s a b : List Char} {n : Nat} :
    splitAtByte s n = some (a, b) ↔ a ++ b = s ∧ byteLength a = n := by
  refine ⟨parts_of_splitAtByte, ?_⟩
  rintro ⟨rfl, rfl⟩
  exact splitAtByte_append a b

/-- A slice is sound exactly if its offsets are the lengths of two prefixes of the text. -/
theorem slice_eq_ok_iff {s m : List Char} {start stop : Nat} :
    slice s start stop = .ok m ↔
      ∃ a b, s = a ++ m ++ b ∧ byteLength a = start ∧ byteLength (a ++ m) = stop := by
  unfold slice
  constructor
  · intro h
    split at h
    · cases h
    · next a b hs =>
      obtain ⟨rfl, rfl⟩ := splitAtByte_eq_some_iff.mp hs
      split at h
      · cases h
      · next a' m' hm =>
        rw [Except.ok.injEq] at h
        subst h
        split at hm
        · obtain ⟨rfl, rfl⟩ := splitAtByte_eq_some_iff.mp hm
          exact ⟨a', b, rfl, rfl, rfl⟩
        · cases hm
  · rintro ⟨a, b, rfl, rfl, rfl⟩
    have hs : splitAtByte (a ++ m ++ b) (byteLength (a ++ m)) = some (a ++ m, b) :=
      splitAtByte_eq_some_iff.mpr ⟨rfl, rfl⟩
    have hm : splitAtByte (a ++ m) (byteLength a) = some (a, m) :=
      splitAtByte_eq_some_iff.mpr ⟨rfl, rfl⟩
    have hle : byteLength a ≤ byteLength (a ++ m) := by
      rw [byteLength_append]
      exact Nat.le_add_right _ _
    simp only [hs, if_pos hle, hm]

theorem slice_append (a m b : List Char) :
    slice (a ++ (m ++ b)) (byteLength a) (byteLength a + byteLength m) = .ok m :=
  slice_eq_ok_iff.mpr ⟨a, b, (List.append_assoc a m b).symm, rfl, byteLength_append a m⟩

theorem sliceFrom_append (a b : List Char) : sliceFrom (a ++ b) (byteLength a) = .ok b :=
  slice_eq_ok_iff.mpr ⟨a, [], (List.append_nil _).symm, rfl, rfl⟩

theorem sliceTo_append (a b : List Char) : sliceTo (a ++ b) (byteLength a) = .ok a :=
  slice_eq_ok_iff.mpr ⟨[], b, rfl, rfl, rfl⟩

theorem sliceFrom_length {s rest : List Char} {start : Nat} (h : sliceFrom s start = .ok rest) :
    start + byteLength rest = byteLength s := by
  obtain ⟨a, b, _, rfl, hl⟩ := slice_eq_ok_iff.mp h
  rw [← hl, byteLength_append]

/-! ## 2. Searches through the characters -/

/-- A search finds the place before which `breakSuffix` splits, if that is not the end. -/
theorem findOffset_eq (test : List Char → Bool) (s : List Char) :
    findOffset test s =
      if (breakSuffix test s).2 = [] then none else some (byteLength (breakSuffix test s).1) := by
  induction s with
  | nil => rfl
  | cons c s ih =>
    rw [findOffset, breakSuffix_cons]
    split
    · simp
    · rw [ih]
      split
      · rfl
      · simp [Nat.add_comm]

/-- A search that finds nothing has gone to the end, where `breakSuffix` splits then. -/
theorem findOffset_cases (test : List Char → Bool) (s : List Char) :
    findOffset test s = none ∧ (breakSuffix test s).1 = s ∨
      findOffset test s = some (byteLength (breakSuffix test s).1) := by
  have hp := breakSuffix_append test s
  rw [findOffset_eq]
  split
  · next h =>
    rw [h, List.append_nil] at hp
    exact Or.inl ⟨rfl, hp⟩
  · exact Or.inr rfl

theorem findOffset_lt {test : List Char → Bool} {s : List Char} {n : Nat}
    (h : findOffset test s = some n) : n < byteLength s := by
  have hp := breakSuffix_append test s
  rw [findOffset_eq] at h
  split at h
  · cases h
  · next hne =>
    rw [Option.some.injEq] at h
    rw [← h, ← hp, byteLength_append, hp]
    exact Nat.lt_add_of_pos_right (byteLength_pos hne)

theorem breakSuffix_atChar (test : Char → Bool) (s : List Char) :
    breakSuffix (atChar test) s = (s.takeWhile (!test ·), s.dropWhile (!test ·)) := by
  induction s with
  | nil => rfl
  | cons c s ih =>
    rw [breakSuffix_cons, List.takeWhile_cons, List.dropWhile_cons, ih]
    cases h : test c <;> simp [atChar, h]

/-- Where a search finds a character, `breakAfter` splits behind it. -/
theorem findOffset_atChar (c : Char) (s : List Char) :
    (findOffset (atChar (· == c)) s).map (· + c.utf8Size) =
      (breakAfter (· == c) s).map fun r => byteLength r.1 := by
  induction s with
  | nil => rfl
  | cons d s ih =>
    rw [findOffset, breakAfter_cons]
    by_cases h : d = c
    · simp [atChar, h]
    · have hb : (d == c) = false := by simpa using h
      simp only [atChar, List.head?_cons, Option.any_some, hb, Bool.false_eq_true, if_false,
        Option.map_map]
      have hc := congrArg (Option.map (· + d.utf8Size)) ih
      simp only [Option.map_map, Function.comp_def] at hc ⊢
      simp only [byteLength_cons, Nat.add_comm d.utf8Size, ← hc, Nat.add_right_comm]

/-! ## 3. The last place of a character -/

theorem lastOffset_eq_none_iff {c : Char} {s : List Char} : lastOffset c s = none ↔ c ∉ s := by
  induction s with
  | nil => simp [lastOffset]
  | cons d s ih =>
    rw [lastOffset, List.mem_cons, not_or, ← ih]
    cases hl : lastOffset c s with
    | some n => simp
    | none => simp [eq_comm]

/-- The last place of a character is in front of the second part exactly if that part does not have
the character. -/
theorem lastOffset_all_iff {c : Char} {a b : List Char} :
    (lastOffset c (a ++ b)).all (· < byteLength a) = true ↔ c ∉ b := by
  induction a with
  | nil =>
    rw [← lastOffset_eq_none_iff]
    cases hl : lastOffset c b <;> simp [hl]
  | cons d a ih =>
    rw [List.cons_append, lastOffset, ← ih]
    have hd := d.utf8Size_pos
    cases hl : lastOffset c (a ++ b) with
    | some n =>
      simp only [Option.all_some, decide_eq_true_eq]
      rw [byteLength_cons]
      omega
    | none =>
      simp only [Option.all_none, iff_true]
      split
      · simp only [Option.all_some, decide_eq_true_eq]
        rw [byteLength_cons]
        omega
      · rfl

/-! ## 4. Searches through the bytes -/

/-- Only a character of ASCII has a byte below 128. -/
theorem utf8EncodeChar_cases (c : Char) :
    c.toNat < 128 ∧ String.utf8EncodeChar c = [UInt8.ofNat c.toNat] ∨
      128 ≤ c.toNat ∧ ∀ b ∈ String.utf8EncodeChar c, 128 ≤ b.toNat := by
  rcases Nat.lt_or_ge c.toNat 128 with h | h
  · have hle : c.val.toNat ≤ 0x7f := Nat.le_of_lt_succ h
    exact Or.inl ⟨h, by rw [String.utf8EncodeChar, if_pos hle]; rfl⟩
  · have hgt : ¬ c.val.toNat ≤ 0x7f := Nat.not_le_of_gt h
    refine Or.inr ⟨h, ?_⟩
    rw [String.utf8EncodeChar, if_neg hgt]
    split
    · simp
      omega
    · split
      · simp
        omega
      · simp
        omega

theorem utf8_cons (c : Char) (s : List Char) : utf8 (c :: s) = String.utf8EncodeChar c ++ utf8 s :=
  List.flatMap_cons

theorem lowerByte_of_ge {b : UInt8} (h : 128 ≤ b.toNat) : lowerByte b = b := by
  rw [lowerByte, if_neg]
  rintro ⟨_, hb⟩
  exact absurd (UInt8.le_iff_toNat_le.mp hb) (by simp; omega)

theorem toLower_of_ge {c : Char} (h : 128 ≤ c.toNat) : c.toLower = c := by
  have hn := toNat_toLower c
  rw [if_neg (by omega)] at hn
  exact Char.toNat_inj.mp hn

/-- In ASCII the two ways to ignore case agree. -/
theorem lowerByte_ofNat {c : Char} (h : c.toNat < 128) :
    lowerByte (UInt8.ofNat c.toNat) = UInt8.ofNat c.toLower.toNat ∧ c.toLower.toNat < 128 := by
  have hall : ∀ n < 128, lowerByte (UInt8.ofNat (Char.ofNat n).toNat) =
      UInt8.ofNat (Char.ofNat n).toLower.toNat ∧ (Char.ofNat n).toLower.toNat < 128 := by
    decide +kernel
  have hc := hall c.toNat h
  rwa [Char.ofNat_toNat] at hc

theorem sameBytesIgnoringCase_cons (a b : UInt8) (x y : List UInt8) :
    sameBytesIgnoringCase (a :: x) (b :: y) =
      (lowerByte a == lowerByte b && sameBytesIgnoringCase x y) := rfl

theorem startsIgnoringCase_cons (c d : Char) (start s : List Char) :
    startsIgnoringCase (c :: start) (d :: s) =
      (c.toLower == d.toLower && startsIgnoringCase start s) := rfl

theorem ofNat_toNat_inj {c d : Char} (hc : c.toNat < 128) (hd : d.toNat < 128) :
    UInt8.ofNat c.toNat = UInt8.ofNat d.toNat ↔ c = d := by
  constructor
  · intro h
    have hn := congrArg UInt8.toNat h
    rw [UInt8.toNat_ofNat', UInt8.toNat_ofNat', Nat.mod_eq_of_lt (by omega),
      Nat.mod_eq_of_lt (by omega)] at hn
    exact Char.toNat_inj.mp hn
  · rintro rfl
    rfl

theorem lowerByte_beq {c d : Char} (hc : c.toNat < 128) (hd : d.toNat < 128) :
    (lowerByte (UInt8.ofNat c.toNat) == lowerByte (UInt8.ofNat d.toNat)) =
      (c.toLower == d.toLower) := by
  obtain ⟨hc, hc'⟩ := lowerByte_ofNat hc
  obtain ⟨hd, hd'⟩ := lowerByte_ofNat hd
  rw [hc, hd, Bool.eq_iff_iff, beq_iff_eq, beq_iff_eq, ofNat_toNat_inj hc' hd']

theorem lowerByte_ne {c : Char} {b : UInt8} (hc : c.toNat < 128) (hb : 128 ≤ b.toNat) :
    (lowerByte (UInt8.ofNat c.toNat) == lowerByte b) = false := by
  obtain ⟨hl, hl'⟩ := lowerByte_ofNat hc
  rw [beq_eq_false_iff_ne, hl, lowerByte_of_ge hb]
  rintro rfl
  rw [UInt8.toNat_ofNat', Nat.mod_eq_of_lt (by omega)] at hb
  omega

theorem utf8_cons_ascii {c : Char} (h : c.toNat < 128) (s : List Char) :
    utf8 (c :: s) = UInt8.ofNat c.toNat :: utf8 s := by
  rcases utf8EncodeChar_cases c with ⟨_, he⟩ | ⟨hg, _⟩
  · rw [utf8_cons, he]
    rfl
  · omega

/-- A window at the front of a character is the needle exactly if the text starts with it. -/
theorem sameBytesIgnoringCase_take {needle : List Char} (hn : ∀ c ∈ needle, c.toNat < 128)
    (s : List Char) :
    sameBytesIgnoringCase (utf8 needle) ((utf8 s).take (utf8 needle).length) =
      startsIgnoringCase needle s := by
  induction needle generalizing s with
  | nil => rfl
  | cons c needle ih =>
    have hc : c.toNat < 128 := hn c (by simp)
    rw [utf8_cons_ascii hc, List.length_cons]
    cases s with
    | nil => rfl
    | cons d s =>
      rw [startsIgnoringCase_cons, utf8_cons]
      rcases utf8EncodeChar_cases d with ⟨hd, he⟩ | ⟨hd, hb⟩
      · rw [he, List.singleton_append, List.take_succ_cons, sameBytesIgnoringCase_cons,
          ih fun x hx => hn x (List.mem_cons_of_mem c hx), lowerByte_beq hc hd]
      · obtain ⟨b, t, ht⟩ := List.exists_cons_of_ne_nil (String.utf8EncodeChar_ne_nil (c := d))
        have hne : (c.toLower == d.toLower) = false := by
          rw [beq_eq_false_iff_ne, toLower_of_ge hd]
          intro h
          have hl := (lowerByte_ofNat hc).2
          rw [h] at hl
          omega
        rw [ht, List.cons_append, List.take_succ_cons, sameBytesIgnoringCase_cons,
          lowerByte_ne hc (hb b (by simp [ht])), hne]
        rfl

/-- No window that starts inside a character is the needle. -/
theorem findWindow_append {c : Char} (hc : c.toNat < 128) (needle : List Char) {x : List UInt8}
    (hx : ∀ b ∈ x, 128 ≤ b.toNat) (y : List UInt8) :
    findWindow (utf8 (c :: needle)) (x ++ y) =
      (findWindow (utf8 (c :: needle)) y).map (· + x.length) := by
  induction x with
  | nil => simp
  | cons b x ih =>
    have hs : sameBytesIgnoringCase (utf8 (c :: needle))
        ((b :: (x ++ y)).take (utf8 (c :: needle)).length) = false := by
      rw [utf8_cons_ascii hc, List.length_cons, List.take_succ_cons, sameBytesIgnoringCase_cons,
        lowerByte_ne hc (hx b (by simp))]
      rfl
    rw [List.cons_append, findWindow, hs, ih fun z hz => hx z (List.mem_cons_of_mem b hz)]
    simp [Function.comp_def, Nat.add_assoc]

/-- A search through the bytes for a needle in ASCII is a search through the characters. -/
theorem findWindow_eq {c : Char} {needle : List Char} (hn : ∀ d ∈ c :: needle, d.toNat < 128)
    (s : List Char) :
    findWindow (utf8 (c :: needle)) (utf8 s) = findOffset (startsIgnoringCase (c :: needle)) s := by
  induction s with
  | nil => rfl
  | cons d s ih =>
    have hs := sameBytesIgnoringCase_take hn (d :: s)
    obtain ⟨b, t, ht, hx⟩ : ∃ b t, String.utf8EncodeChar d = b :: t ∧ ∀ x ∈ t, 128 ≤ x.toNat := by
      rcases utf8EncodeChar_cases d with ⟨_, he⟩ | ⟨_, hb⟩
      · exact ⟨_, [], he, by simp⟩
      · obtain ⟨b, t, ht⟩ := List.exists_cons_of_ne_nil (String.utf8EncodeChar_ne_nil (c := d))
        exact ⟨b, t, ht, fun x hx => hb x (by simp [ht, hx])⟩
    have hl : t.length + 1 = d.utf8Size := by
      rw [← String.length_utf8EncodeChar, ht, List.length_cons]
    rw [findOffset, ← hs, utf8_cons d, ht, List.cons_append, findWindow,
      findWindow_append (hn c (by simp)) needle hx, ih]
    split
    · rfl
    · rw [Option.map_map, ← hl]
      rfl

end MarkupLint.Text
