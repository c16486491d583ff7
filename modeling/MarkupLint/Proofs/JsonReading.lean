import MarkupLint.Report.Jsonl
import MarkupLint.Text.Basic

/-!
# Reading JSON

A reader of JSON texts, by which is said what a record tells those who read it. It takes the whole
of JSON: white space between the parts, all escapes with surrogate pairs, numbers with fractions and
exponents, arrays and objects to any depth. A reader of a part gives the part with what follows it.

Results:
1. `readChar_jsonChar`, `readText_jsonText`: texts are read back, whatever is in them.
2. `readNumber_toDigits`: numbers are read back.
3. `readValue_encode`, `readMembers_written`, `read?_encode`: records are read back.
4. `clean_encode`: a record has no control characters.
-/

namespace MarkupLint.Report

open Text

/-! ## The reader -/

/-- JSON values. A number is its mantissa times the power of ten with its exponent. -/
inductive Json where
  | null
  | truth (b : Bool)
  | number (mantissa exponent : Int)
  | text (s : List Char)
  | array (items : List Json)
  | object (members : List (List Char × Json))

/-- The value that is written. -/
def JsonValue.toJson : JsonValue → Json
  | text s => .text s
  | number n => .number n 0
  | truth b => .truth b

/-- The members of the object that is written. -/
def JsonRecord.members (r : JsonRecord) : List (List Char × Json) :=
  r.map fun f => (f.1.toList, f.2.toJson)

namespace Json

/-- White space between the parts of a value. -/
def isGap (c : Char) : Bool := c == ' ' || c == '\t' || c == '\n' || c == '\r'

def skipGap (s : List Char) : List Char := s.dropWhile isGap

/-- The letters of the short escapes, with what they stand for. -/
def escapes : List (Char × Char) :=
  [('"', '"'), ('\\', '\\'), ('/', '/'), ('b', '\x08'), ('f', '\x0c'), ('n', '\n'), ('r', '\r'),
    ('t', '\t')]

def readUnit : List Char → Option (Nat × List Char)
  | a :: b :: c :: d :: s =>
    if [a, b, c, d].all isHexDigit then some (numberOf 16 [a, b, c, d], s) else none
  | _ => none

def readLow (high : Nat) : List Char → Option (Char × List Char)
  | '\\' :: 'u' :: s => do
    let (low, s) ← readUnit s
    if 0xdc00 ≤ low ∧ low < 0xe000 then
      (charOfCode? (0x10000 + (high - 0xd800) * 0x400 + (low - 0xdc00))).map (·, s)
    else none
  | _ => none

def readCode (s : List Char) : Option (Char × List Char) := do
  let (n, s) ← readUnit s
  if 0xd800 ≤ n ∧ n < 0xdc00 then readLow n s else (charOfCode? n).map (·, s)

def readChar : List Char → Option (Char × List Char)
  | [] => none
  | '\\' :: [] => none
  | '\\' :: c :: s => if c = 'u' then readCode s else (escapes.lookup c).map (·, s)
  | c :: s => if c.toNat < 32 then none else some (c, s)

theorem length_readUnit {s t : List Char} {n : Nat} (h : readUnit s = some (n, t)) :
    t.length < s.length := by
  unfold readUnit at h
  split at h
  · split at h
    · cases h
      simp only [List.length_cons]
      omega
    · cases h
  · cases h

theorem length_readLow {s t : List Char} {n : Nat} {c : Char} (h : readLow n s = some (c, t)) :
    t.length < s.length := by
  unfold readLow at h
  split at h
  · next s =>
    obtain ⟨⟨m, u⟩, hu, h⟩ := Option.bind_eq_some_iff.mp h
    have hl := length_readUnit hu
    dsimp only at h
    split at h
    · obtain ⟨d, -, hd⟩ := Option.map_eq_some_iff.mp h
      cases hd
      simp only [List.length_cons]
      omega
    · cases h
  · cases h

theorem length_readCode {s t : List Char} {c : Char} (h : readCode s = some (c, t)) :
    t.length < s.length := by
  obtain ⟨⟨n, u⟩, hu, h⟩ := Option.bind_eq_some_iff.mp h
  have hl := length_readUnit hu
  dsimp only at h
  split at h
  · exact Nat.lt_trans (length_readLow h) hl
  · obtain ⟨d, -, hd⟩ := Option.map_eq_some_iff.mp h
    cases hd
    exact hl

theorem length_readChar {s t : List Char} {c : Char} (h : readChar s = some (c, t)) :
    t.length < s.length := by
  unfold readChar at h
  split at h
  · cases h
  · cases h
  · split at h
    · have hl := length_readCode h
      simp only [List.length_cons]
      omega
    · obtain ⟨d, -, hd⟩ := Option.map_eq_some_iff.mp h
      cases hd
      exact Nat.lt_succ_of_lt (Nat.lt_succ_self _)
  · split at h
    · cases h
    · cases h
      exact Nat.lt_succ_self _

/-- Reads the characters of a text and the quote at its end. -/
def readText (s : List Char) : Option (List Char × List Char) :=
  if s.head? = some '"' then some ([], s.tail)
  else
    match _h : readChar s with
    | none => none
    | some (c, t) => (readText t).map fun (cs, u) => (c :: cs, u)
termination_by s.length
decreasing_by exact length_readChar _h

def readDigits (s : List Char) : Option (List Char × List Char) :=
  let digits := s.takeWhile Char.isDigit
  if digits = [] then none else some (digits, s.dropWhile Char.isDigit)

/-- Reads digits, of which the first one is no zero that could be left out. -/
def readWhole (s : List Char) : Option (List Char × List Char) :=
  (readDigits s).filter fun (digits, _) => digits.length == 1 || digits.head? != some '0'

def readFraction : List Char → Option (List Char × List Char)
  | '.' :: s => readDigits s
  | s => some ([], s)

def decimalOf (digits : List Char) : Int := (Nat.ofDigitChars 10 digits 0 : Nat)

def readSigned : List Char → Option (Int × List Char)
  | '+' :: s => (readDigits s).map fun (digits, s) => (decimalOf digits, s)
  | '-' :: s => (readDigits s).map fun (digits, s) => (-decimalOf digits, s)
  | s => (readDigits s).map fun (digits, s) => (decimalOf digits, s)

def readExponent : List Char → Option (Int × List Char)
  | 'e' :: s => readSigned s
  | 'E' :: s => readSigned s
  | s => some (0, s)

def readNumber (s : List Char) : Option ((Int × Int) × List Char) := do
  let (whole, s) ← readWhole s
  let (fraction, s) ← readFraction s
  let (e, s) ← readExponent s
  return ((decimalOf (whole ++ fraction), e - fraction.length), s)

/-- The values that are written as words. -/
def words : List (String × Json) := [("null", null), ("true", truth true), ("false", truth false)]

def readWord (s : List Char) : Option (Json × List Char) :=
  words.findSome? fun (w, v) => (w.toList.isPrefixOf? s).map (v, ·)

/-- Reads one character. -/
def readExactly (c : Char) (s : List Char) : Option (List Char) :=
  if s.head? = some c then some s.tail else none

mutual

/-- Reads a value. The number bounds the steps; the length of the text is enough of them. -/
def readValue : Nat → List Char → Option (Json × List Char)
  | 0, _ => none
  | _, [] => none
  | n + 1, c :: s =>
    if c = '"' then (readText s).map fun (t, s) => (text t, s)
    else if c = '[' then
      match readExactly ']' (skipGap s) with
      | some s => some (array [], s)
      | none => (readItems n (skipGap s)).map fun (vs, s) => (array vs, s)
    else if c = '\x7b' then
      match readExactly '\x7d' (skipGap s) with
      | some s => some (object [], s)
      | none => (readMembers n (skipGap s)).map fun (ms, s) => (object ms, s)
    else if c = '-' then (readNumber s).map fun (x, s) => (number (-x.1) x.2, s)
    else if c.isDigit then (readNumber (c :: s)).map fun (x, s) => (number x.1 x.2, s)
    else readWord (c :: s)

def readItems : Nat → List Char → Option (List Json × List Char)
  | 0, _ => none
  | n + 1, s => do
    let (v, s) ← readValue n s
    match readExactly ',' (skipGap s) with
    | some s =>
      let (vs, s) ← readItems n (skipGap s)
      return (v :: vs, s)
    | none => return ([v], ← readExactly ']' (skipGap s))

def readMembers : Nat → List Char → Option (List (List Char × Json) × List Char)
  | 0, _ => none
  | n + 1, s => do
    let (key, s) ← readText (← readExactly '"' s)
    let (v, s) ← readValue n (skipGap (← readExactly ':' (skipGap s)))
    match readExactly ',' (skipGap s) with
    | some s =>
      let (ms, s) ← readMembers n (skipGap s)
      return ((key, v) :: ms, s)
    | none => return ([(key, v)], ← readExactly '\x7d' (skipGap s))

end

/-- The value that a text spells, with nothing but white space around it. -/
def read? (s : List Char) : Option Json := do
  let (v, rest) ← readValue (s.length + 1) (skipGap s)
  if skipGap rest = [] then some v else none

def member? (key : String) : Json → Option Json
  | object members => members.lookup key.toList
  | _ => none

/-! ## 1. Texts -/

theorem isHexDigit_hexDigit : ∀ n < 16, isHexDigit (hexDigit n) = true := by decide

/-- The code point of a control character is read back from its two digits. -/
theorem numberOf_hexDigits : ∀ n < 32,
    numberOf 16 ['0', '0', hexDigit (n / 16), hexDigit (n % 16)] = n := by decide

theorem charOfCode?_toNat (c : Char) : charOfCode? c.toNat = some c := by
  have hv : c.toNat.isValidChar := c.valid
  rw [charOfCode?, if_pos hv, Char.ofNat_toNat]

/-- A control character is read back from its code point. -/
theorem readCode_hexDigits {c : Char} (hc : c.toNat < 32) (s : List Char) :
    readCode ('0' :: '0' :: hexDigit (c.toNat / 16) :: hexDigit (c.toNat % 16) :: s) =
      some (c, s) := by
  have hd : ['0', '0', hexDigit (c.toNat / 16), hexDigit (c.toNat % 16)].all isHexDigit = true := by
    have h₁ := isHexDigit_hexDigit (c.toNat / 16) (by omega)
    have h₂ := isHexDigit_hexDigit (c.toNat % 16) (by omega)
    rw [List.all_cons, List.all_cons, List.all_cons, List.all_cons, h₁, h₂]
    rfl
  have hu : readUnit ('0' :: '0' :: hexDigit (c.toNat / 16) :: hexDigit (c.toNat % 16) :: s) =
      some (c.toNat, s) := by
    rw [readUnit, if_pos hd, numberOf_hexDigits _ hc]
  rw [readCode, hu]
  show (if 0xd800 ≤ c.toNat ∧ c.toNat < 0xdc00 then _ else _) = _
  rw [if_neg (by omega), charOfCode?_toNat]
  rfl

/-- A character that needs no escape is read as it is. -/
theorem readChar_plain {c : Char} (hb : c ≠ '\\') (hc : ¬c.toNat < 32) (s : List Char) :
    readChar (c :: s) = some (c, s) := by
  unfold readChar
  split
  · next h => cases h
  · next h => exact absurd (List.cons.inj h).1 hb
  · next h => exact absurd (List.cons.inj h).1 hb
  · next h =>
    obtain ⟨rfl, rfl⟩ := List.cons.inj h
    rw [if_neg hc]

/-- Every character of a text is read back. -/
theorem readChar_jsonChar (c : Char) (s : List Char) :
    readChar (jsonChar c ++ s) = some (c, s) := by
  unfold jsonChar
  split
  · next h => rcases h with rfl | rfl <;> rfl
  · next h₀ =>
    iterate 5
      split
      · next h =>
        rw [h]
        rfl
    split
    · next h => exact readCode_hexDigits h s
    · next h => exact readChar_plain (fun hb => h₀ (.inr hb)) h s

/-- What is written for a character does not begin with a quote. -/
theorem head?_jsonChar (c : Char) (s : List Char) : (jsonChar c ++ s).head? ≠ some '"' := by
  unfold jsonChar
  split
  · simp
  · next h₀ =>
    iterate 6
      split
      · simp
    simpa using fun h => h₀ (.inl h)

/-- Every text is read back. -/
theorem readText_jsonText (s t : List Char) :
    readText (s.flatMap jsonChar ++ '"' :: t) = some (s, t) := by
  induction s with
  | nil =>
    rw [readText]
    rfl
  | cons c s ih =>
    rw [List.flatMap_cons, List.append_assoc, readText, if_neg (head?_jsonChar c _)]
    split
    · next h =>
      rw [readChar_jsonChar] at h
      cases h
    · next d u h =>
      rw [readChar_jsonChar] at h
      cases h
      rw [ih]
      rfl

/-! ## 2. Numbers -/

/-- What may follow a value in a record: a comma or the brace. -/
def Stops (t : List Char) : Prop := ∃ c u, t = c :: u ∧ (c = ',' ∨ c = '\x7d')

theorem readDigits_append {ds t : List Char} (hne : ds ≠ []) (hd : ∀ c ∈ ds, c.isDigit = true)
    (ht : Stops t) : readDigits (ds ++ t) = some (ds, t) := by
  obtain ⟨c, u, rfl, hc⟩ := ht
  have hn : c.isDigit = false := by rcases hc with rfl | rfl <;> rfl
  have htake : (ds ++ c :: u).takeWhile Char.isDigit = ds := by
    rw [List.takeWhile_append_of_pos hd, List.takeWhile_cons_of_neg (by simp [hn]), List.append_nil]
  have hdrop : (ds ++ c :: u).dropWhile Char.isDigit = c :: u := by
    rw [List.dropWhile_append_of_pos hd, List.dropWhile_cons_of_neg (by simp [hn])]
  rw [readDigits, htake, hdrop]
  exact if_neg hne

theorem exists_digit (n : Nat) :
    ∃ d ds, Nat.toDigits 10 n = d :: ds ∧ d.isDigit = true := by
  obtain ⟨d, ds, he⟩ := List.exists_cons_of_ne_nil (Nat.toDigits_ne_nil (b := 10) (n := n))
  have hm : d ∈ Nat.toDigits 10 n := he ▸ List.mem_cons_self
  exact ⟨d, ds, he, Nat.isDigit_of_mem_toDigits (by decide) (by decide) hm⟩

theorem digitChar_ne_zero : ∀ n < 10, 0 < n → n.digitChar ≠ '0' := by decide

/-- A number is written without zeros that could be left out. -/
theorem head?_toDigits {n : Nat} (hn : 0 < n) : (Nat.toDigits 10 n).head? ≠ some '0' := by
  induction n using Nat.strongRecOn with
  | _ n ih =>
    rcases Nat.lt_or_ge n 10 with hl | hl
    · rw [Nat.toDigits_of_lt_base hl]
      exact fun h => digitChar_ne_zero n hl hn (Option.some.inj h)
    · have hd := ih (n / 10) (by omega) (by omega)
      obtain ⟨d, ds, he, -⟩ := exists_digit (n / 10)
      rw [Nat.toDigits_of_base_le (by decide) hl, he]
      rwa [he] at hd

theorem readWhole_toDigits (n : Nat) {t : List Char} (ht : Stops t) :
    readWhole (Nat.toDigits 10 n ++ t) = some (Nat.toDigits 10 n, t) := by
  rw [readWhole, readDigits_append Nat.toDigits_ne_nil
    (fun c hc => Nat.isDigit_of_mem_toDigits (by decide) (by decide) hc) ht, Option.filter_some]
  refine if_pos ?_
  rcases Nat.eq_zero_or_pos n with rfl | hn
  · rfl
  · simp [head?_toDigits hn]

/-- Every natural number is read back. -/
theorem readNumber_toDigits (n : Nat) {t : List Char} (ht : Stops t) :
    readNumber (Nat.toDigits 10 n ++ t) = some (((n : Int), 0), t) := by
  have hf : readFraction t = some ([], t) := by
    obtain ⟨c, u, rfl, rfl | rfl⟩ := ht <;> rfl
  have he : readExponent t = some (0, t) := by
    obtain ⟨c, u, rfl, rfl | rfl⟩ := ht <;> rfl
  simp [readNumber, readWhole_toDigits n ht, hf, he, decimalOf]

/-! ## 3. Records -/

/-- A value is read back. -/
theorem readValue_encode (v : JsonValue) (n : Nat) {t : List Char} (ht : Stops t) :
    readValue (n + 1) (v.encode ++ t) = some (v.toJson, t) := by
  cases v with
  | text s =>
    rw [JsonValue.encode, jsonText, List.cons_append, List.append_assoc, readValue, if_pos rfl,
      List.singleton_append, readText_jsonText]
    rfl
  | number m =>
    obtain ⟨d, ds, he, hd⟩ := exists_digit m
    have hne : ∀ c : Char, c.isDigit = false → d ≠ c := fun c hc h => by
      rw [h, hc] at hd
      cases hd
    rw [JsonValue.encode, he, List.cons_append, readValue, if_neg (hne _ rfl), if_neg (hne _ rfl),
      if_neg (hne _ rfl), if_neg (hne _ rfl), if_pos hd, ← List.cons_append, ← he,
      readNumber_toDigits m ht]
    rfl
  | truth b =>
    cases b <;>
      · rw [JsonValue.encode]
        rfl

/-- No value begins with white space. -/
theorem skipGap_encode (v : JsonValue) (t : List Char) :
    skipGap (v.encode ++ t) = v.encode ++ t := by
  cases v with
  | text s => rfl
  | number m =>
    obtain ⟨d, ds, he, hd⟩ := exists_digit m
    have hg : ¬isGap d = true := fun h => by
      simp only [isGap, Bool.or_eq_true, beq_iff_eq] at h
      rcases h with ((rfl | rfl) | rfl) | rfl <;> cases hd
    rw [JsonValue.encode, he, List.cons_append, skipGap, List.dropWhile_cons_of_neg hg]
  | truth b => cases b <;> rfl

/-- A member is read up to what stops it. -/
theorem readMembers_field (f : String × JsonValue) (n : Nat) {t : List Char} (ht : Stops t) :
    readMembers (n + 2) (jsonField f ++ t) =
      match readExactly ',' (skipGap t) with
      | some s => do
        let (ms, s) ← readMembers (n + 1) (skipGap s)
        return ((f.1.toList, f.2.toJson) :: ms, s)
      | none => do return ([(f.1.toList, f.2.toJson)], ← readExactly '\x7d' (skipGap t)) := by
  have hq : jsonField f ++ t =
      '"' :: (f.1.toList.flatMap jsonChar ++ '"' :: ':' :: (f.2.encode ++ t)) := by
    simp [jsonField, jsonText]
  have hs : ∀ s, readExactly '"' ('"' :: s) = some s := fun s => rfl
  have hc : ∀ s, readExactly ':' (skipGap (':' :: s)) = some s := fun s => rfl
  rw [hq, readMembers]
  simp only [hs, readText_jsonText, hc, skipGap_encode, readValue_encode f.2 n ht,
    Option.bind_eq_bind, Option.bind_some]

/-- What stands behind the opening brace of a record. -/
def written (r : JsonRecord) (t : List Char) : List Char :=
  List.intercalate [','] (r.map jsonField) ++ '\x7d' :: t

theorem written_single (f : String × JsonValue) (t : List Char) :
    written [f] t = jsonField f ++ '\x7d' :: t := by
  simp [written, List.intercalate]

theorem written_cons (f g : String × JsonValue) (r : JsonRecord) (t : List Char) :
    written (f :: g :: r) t = jsonField f ++ ',' :: written (g :: r) t := by
  simp [written, List.intercalate]

/-- The fields begin with the quote of the first key. -/
theorem written_quote (f : String × JsonValue) (r : JsonRecord) (t : List Char) :
    ∃ s, written (f :: r) t = '"' :: s := by
  cases r with
  | nil => exact ⟨_, written_single f t⟩
  | cons g r => exact ⟨_, written_cons f g r t⟩

theorem length_le_written (r : JsonRecord) (t : List Char) : r.length ≤ (written r t).length := by
  induction r with
  | nil => exact Nat.zero_le _
  | cons f r ih =>
    have hf : 0 < (jsonField f).length := by simp [jsonField, jsonText]
    cases r with
    | nil =>
      rw [written_single, List.length_append, List.length_singleton]
      omega
    | cons g r =>
      rw [written_cons, List.length_append, List.length_cons (a := ','), List.length_cons (a := f)]
      omega

/-- The fields are read back, with more steps than there are fields. -/
theorem readMembers_written {r : JsonRecord} (hr : r ≠ []) {n : Nat} (hn : r.length < n)
    (t : List Char) : readMembers n (written r t) = some (r.members, t) := by
  induction r generalizing n with
  | nil => exact absurd rfl hr
  | cons f r ih =>
    obtain ⟨n, rfl⟩ : ∃ m, n = m + 2 := ⟨n - 2, by simp at hn; omega⟩
    cases r with
    | nil =>
      rw [written_single, readMembers_field f n ⟨_, _, rfl, .inr rfl⟩]
      rfl
    | cons g r =>
      have hc : readExactly ',' (skipGap (',' :: written (g :: r) t)) =
          some (written (g :: r) t) := rfl
      have hg : skipGap (written (g :: r) t) = written (g :: r) t := by
        obtain ⟨s, hs⟩ := written_quote g r t
        rw [hs]
        rfl
      rw [written_cons, readMembers_field f n ⟨_, _, rfl, .inl rfl⟩, hc]
      simp only [hg]
      rw [ih (List.cons_ne_nil g r) (Nat.lt_of_succ_lt_succ hn)]
      rfl

/-- A record is read back. -/
theorem read?_encode (r : JsonRecord) : read? r.encode = some (.object r.members) := by
  have he : r.encode = '\x7b' :: written r [] := rfl
  cases r with
  | nil => rfl
  | cons f r =>
    have hm : readMembers (written (f :: r) []).length.succ (written (f :: r) []) =
        some (JsonRecord.members (f :: r), []) :=
      readMembers_written (List.cons_ne_nil f r) (Nat.lt_succ_of_le (length_le_written _ _)) []
    obtain ⟨s, hs⟩ := written_quote f r []
    rw [hs] at hm he
    have hc : readExactly '\x7d' (skipGap ('"' :: s)) = none := rfl
    have hg : skipGap ('"' :: s) = '"' :: s := rfl
    have hv : readValue (('\x7b' :: '"' :: s).length + 1) (skipGap ('\x7b' :: '"' :: s)) =
        some (.object (JsonRecord.members (f :: r)), []) := by
      rw [show skipGap ('\x7b' :: '"' :: s) = '\x7b' :: '"' :: s from rfl, readValue,
        if_neg (by decide), if_neg (by decide), if_pos rfl, hc, hg]
      exact congrArg (Option.map _) hm
    rw [he, read?, hv]
    rfl

/-! ## 4. Control characters -/

/-- None of the characters is a control character of the first 32. -/
def Clean (s : List Char) : Prop := ∀ c ∈ s, 32 ≤ c.toNat

theorem Clean.of_all {s : List Char} (h : s.all (fun c => decide (32 ≤ c.toNat)) = true) :
    Clean s :=
  fun c hc => of_decide_eq_true (List.all_eq_true.mp h c hc)

theorem Clean.append {s t : List Char} (hs : Clean s) (ht : Clean t) : Clean (s ++ t) :=
  List.forall_mem_append.mpr ⟨hs, ht⟩

theorem Clean.cons {c : Char} {s : List Char} (hc : 32 ≤ c.toNat) (hs : Clean s) :
    Clean (c :: s) :=
  List.forall_mem_cons.mpr ⟨hc, hs⟩

theorem le_hexDigit : ∀ n < 16, 32 ≤ (hexDigit n).toNat := by decide

theorem clean_jsonChar (c : Char) : Clean (jsonChar c) := by
  unfold jsonChar
  split
  · next h => rcases h with rfl | rfl <;> exact .of_all rfl
  iterate 5
    split
    · exact .of_all rfl
  split
  · next h =>
    have hh := le_hexDigit (c.toNat / 16) (by omega)
    have hl := le_hexDigit (c.toNat % 16) (by omega)
    exact .append (s := ['\\', 'u', '0', '0']) (.of_all rfl) (.cons hh (.cons hl nofun))
  · next h => exact .cons (Nat.le_of_not_lt h) nofun

theorem clean_jsonText (s : List Char) : Clean (jsonText s) := by
  refine .cons (by decide) (.append (fun d hd => ?_) (.cons (by decide) nofun))
  obtain ⟨c, -, hc⟩ := List.mem_flatMap.mp hd
  exact clean_jsonChar c d hc

theorem clean_value (v : JsonValue) : Clean v.encode := by
  cases v with
  | text s => exact clean_jsonText s
  | number n =>
    intro c hc
    have hd : c.isDigit = true := Nat.isDigit_of_mem_toDigits (by decide) (by decide) hc
    exact Nat.le_trans (by decide) (Char.isDigit_iff_toNat.mp hd).1
  | truth b => cases b <;> exact .of_all rfl

theorem clean_written (r : JsonRecord) {t : List Char} (ht : Clean t) : Clean (written r t) := by
  have hf : ∀ f, Clean (jsonField f) := fun f =>
    .append (clean_jsonText _) (.cons (by decide) (clean_value f.2))
  induction r with
  | nil => exact .cons (by decide) ht
  | cons f r ih =>
    cases r with
    | nil => exact written_single f t ▸ .append (hf f) (.cons (by decide) ht)
    | cons g r => exact written_cons f g r t ▸ .append (hf f) (.cons (by decide) ih)

/-- A record has no control characters. -/
theorem clean_encode (r : JsonRecord) : Clean r.encode :=
  .cons (by decide) (clean_written r nofun)

end Json

end MarkupLint.Report
