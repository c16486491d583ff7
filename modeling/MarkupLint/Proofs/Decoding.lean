import Mathlib
import MarkupLint.Text.Utf8

/-!
# Reading UTF-8

Bytes are read as text exactly if they are the text in UTF-8. The table of UTF-8 (`Encodes`) stands
between the two: the reader accepts what is in the table, and the table holds the bytes of each
character and no others.

Results:
1. `inBytes_iff`, `isTail_iff`, `mayFollow_iff`: the tests of single bytes, as bounds.
2. `Encodes.readChar`, `readChar_encodes`: the reader follows the table.
3. `encodes_utf8EncodeChar`, `Encodes.eq_utf8EncodeChar`: the table holds the bytes of characters.
4. `readChar_eq_some_iff`, `ofUtf8?_eq_some_iff`: one character, and a whole text.
-/

namespace MarkupLint.Text

/-! ## 1. Single bytes -/

theorem lt_ascii_iff {b : UInt8} : b < 0x80 ↔ b.toNat < 128 := UInt8.lt_iff_toNat_lt

theorem inBytes_iff {low high b : UInt8} :
    inBytes low high b = true ↔ low.toNat ≤ b.toNat ∧ b.toNat ≤ high.toNat := by
  simp [inBytes, UInt8.le_iff_toNat_le]

theorem isTail_iff {b : UInt8} : isTail b = true ↔ 128 ≤ b.toNat ∧ b.toNat ≤ 191 := inBytes_iff

theorem mayFollow_iff {b c : UInt8} : mayFollow b c = true ↔
    (128 ≤ c.toNat ∧ c.toNat ≤ 191) ∧ (b.toNat = 224 → 160 ≤ c.toNat) ∧
      (b.toNat = 237 → c.toNat ≤ 159) ∧ (b.toNat = 240 → 144 ≤ c.toNat) ∧
        (b.toNat = 244 → c.toNat ≤ 143) := by
  unfold mayFollow
  simp only [← UInt8.toNat_inj, UInt8.reduceToNat]
  repeat' split
  all_goals
    rw [inBytes_iff]
    simp only [UInt8.reduceToNat]
    omega

theorem toNat_ofNat_byte {n : Nat} (h : n < 256) : (UInt8.ofNat n).toNat = n :=
  UInt8.toNat_ofNat_of_lt' h

theorem ofNat_eq_byte {n : Nat} (b : UInt8) (h : n = b.toNat) : UInt8.ofNat n = b := by
  rw [h, UInt8.ofNat_toNat]

/-! ## 2. The table and the reader -/

/-- The bytes stand for the number of a character. The first byte tells how many there are; what is
left of them, in order, are the digits of the number. -/
inductive Encodes (n : Nat) : List UInt8 → Prop
  | one {b : UInt8} : b.toNat < 128 → n = b.toNat → Encodes n [b]
  | two {b c : UInt8} : 194 ≤ b.toNat → b.toNat ≤ 223 → isTail c = true →
      n = b.toNat % 32 * 64 + tailBits c → Encodes n [b, c]
  | three {b c d : UInt8} : 224 ≤ b.toNat → b.toNat ≤ 239 → mayFollow b c = true →
      isTail d = true → n = (b.toNat % 16 * 64 + tailBits c) * 64 + tailBits d →
      Encodes n [b, c, d]
  | four {b c d e : UInt8} : 240 ≤ b.toNat → b.toNat ≤ 244 → mayFollow b c = true →
      isTail d = true → isTail e = true →
      n = ((b.toNat % 8 * 64 + tailBits c) * 64 + tailBits d) * 64 + tailBits e →
      Encodes n [b, c, d, e]

theorem Encodes.readChar {n : Nat} {bs : List UInt8} (h : Encodes n bs) :
    ∃ b s, bs = b :: s ∧ ∀ t, readChar b (s ++ t) = (some (Char.ofNat n), t) := by
  cases h with
  | one hb hn =>
    refine ⟨_, _, rfl, fun t => ?_⟩
    have h1 := lt_ascii_iff.mpr hb
    simp [Text.readChar, h1, hn]
  | two h1 h2 hc hn =>
    refine ⟨_, _, rfl, fun t => ?_⟩
    have n1 := lt_ascii_iff.not.mpr (Nat.not_lt.mpr (Nat.le_trans (by decide) h1))
    simp [Text.readChar, n1, inBytes_iff, h1, h2, hc, hn]
  | three h1 h2 hc hd hn =>
    refine ⟨_, _, rfl, fun t => ?_⟩
    have n1 := lt_ascii_iff.not.mpr (Nat.not_lt.mpr (Nat.le_trans (by decide) h1))
    have n2 := Nat.not_le.mpr (Nat.lt_of_lt_of_le (by decide : 223 < 224) h1)
    simp [Text.readChar, n1, n2, inBytes_iff, h1, h2, hc, hd, hn]
  | four h1 h2 hc hd he hn =>
    refine ⟨_, _, rfl, fun t => ?_⟩
    have n1 := lt_ascii_iff.not.mpr (Nat.not_lt.mpr (Nat.le_trans (by decide) h1))
    have n2 := Nat.not_le.mpr (Nat.lt_of_lt_of_le (by decide : 223 < 240) h1)
    have n3 := Nat.not_le.mpr (Nat.lt_of_lt_of_le (by decide : 239 < 240) h1)
    simp [Text.readChar, n1, n2, n3, inBytes_iff, h1, h2, hc, hd, he, hn]

/-- When a character is read, the next byte is one that may stand there. -/
theorem exists_next {p : UInt8 → Bool} {more : UInt8 → List UInt8 → Option Char × List UInt8}
    {s t : List UInt8} {c : Char}
    (h : (match s with
      | b :: u => if p b then more b u else (none, s)
      | [] => (none, s)) = (some c, t)) :
    ∃ b u, s = b :: u ∧ p b = true ∧ more b u = (some c, t) := by
  cases s with
  | nil => simp at h
  | cons b u =>
    simp only at h
    split at h
    · next hb => exact ⟨b, u, rfl, hb, h⟩
    · simp at h

/-- What the reader accepts is in the table. -/
theorem readChar_encodes {b : UInt8} {s t : List UInt8} {c : Char}
    (h : readChar b s = (some c, t)) :
    ∃ n bs, Encodes n bs ∧ c = Char.ofNat n ∧ b :: s = bs ++ t := by
  unfold readChar at h
  split at h
  · next hb =>
    obtain ⟨rfl, rfl⟩ : _ ∧ _ := by simpa using h
    exact ⟨_, _, .one (lt_ascii_iff.mp hb) rfl, rfl, rfl⟩
  split at h
  · next hb =>
    obtain ⟨h1, h2⟩ := inBytes_iff.mp hb
    obtain ⟨d, u, rfl, hd, h⟩ := exists_next h
    obtain ⟨rfl, rfl⟩ : _ ∧ _ := by simpa using h
    exact ⟨_, _, .two h1 h2 hd rfl, rfl, rfl⟩
  split at h
  · next hb =>
    obtain ⟨h1, h2⟩ := inBytes_iff.mp hb
    obtain ⟨d, u, rfl, hd, h⟩ := exists_next h
    obtain ⟨e, v, rfl, he, h⟩ := exists_next h
    obtain ⟨rfl, rfl⟩ : _ ∧ _ := by simpa using h
    exact ⟨_, _, .three h1 h2 hd he rfl, rfl, rfl⟩
  split at h
  · next hb =>
    obtain ⟨h1, h2⟩ := inBytes_iff.mp hb
    obtain ⟨d, u, rfl, hd, h⟩ := exists_next h
    obtain ⟨e, v, rfl, he, h⟩ := exists_next h
    obtain ⟨f, w, rfl, hf, h⟩ := exists_next h
    obtain ⟨rfl, rfl⟩ : _ ∧ _ := by simpa using h
    exact ⟨_, _, .four h1 h2 hd he hf rfl, rfl, rfl⟩
  · simp at h

/-! ## 3. The table and characters -/

theorem encodes_utf8EncodeChar (c : Char) : Encodes c.toNat (String.utf8EncodeChar c) := by
  have hv : c.toNat.isValidChar := c.valid
  have he : c.val.toNat = c.toNat := rfl
  unfold String.utf8EncodeChar
  generalize c.toNat = n at hv he
  simp only [Nat.isValidChar] at hv
  simp only [he]
  split
  · have hb : (UInt8.ofNat n).toNat = n := toNat_ofNat_byte (by omega)
    exact .one (by omega) hb.symm
  have h0 : (UInt8.ofNat (n % 64 + 128)).toNat = n % 64 + 128 := toNat_ofNat_byte (by omega)
  have h1 : (UInt8.ofNat (n / 64 % 64 + 128)).toNat = n / 64 % 64 + 128 :=
    toNat_ofNat_byte (by omega)
  have h2 : (UInt8.ofNat (n / 4096 % 64 + 128)).toNat = n / 4096 % 64 + 128 :=
    toNat_ofNat_byte (by omega)
  split
  · have hb : (UInt8.ofNat (n / 64 % 32 + 192)).toNat = n / 64 % 32 + 192 :=
      toNat_ofNat_byte (by omega)
    refine .two (by omega) (by omega) (isTail_iff.mpr (by omega)) ?_
    unfold tailBits
    omega
  split
  · have hb : (UInt8.ofNat (n / 4096 % 16 + 224)).toNat = n / 4096 % 16 + 224 :=
      toNat_ofNat_byte (by omega)
    refine .three (by omega) (by omega) (mayFollow_iff.mpr (by omega)) (isTail_iff.mpr (by omega))
      ?_
    unfold tailBits
    omega
  · have hb : (UInt8.ofNat (n / 262144 % 8 + 240)).toNat = n / 262144 % 8 + 240 :=
      toNat_ofNat_byte (by omega)
    refine .four (by omega) (by omega) (mayFollow_iff.mpr (by omega)) (isTail_iff.mpr (by omega))
      (isTail_iff.mpr (by omega)) ?_
    unfold tailBits
    omega

theorem Encodes.isValidChar {n : Nat} {bs : List UInt8} (h : Encodes n bs) : n.isValidChar := by
  unfold Nat.isValidChar
  cases h with
  | one hb hn => omega
  | two h1 h2 hc hn =>
    have c1 := isTail_iff.mp hc
    unfold tailBits at hn
    omega
  | three h1 h2 hc hd hn =>
    have c1 := mayFollow_iff.mp hc
    have d1 := isTail_iff.mp hd
    unfold tailBits at hn
    omega
  | four h1 h2 hc hd he hn =>
    have c1 := mayFollow_iff.mp hc
    have d1 := isTail_iff.mp hd
    have e1 := isTail_iff.mp he
    unfold tailBits at hn
    omega

theorem Encodes.eq_utf8EncodeChar {n : Nat} {bs : List UInt8} (h : Encodes n bs) :
    bs = String.utf8EncodeChar (Char.ofNat n) := by
  have hv : (Char.ofNat n).val.toNat = n := by
    rw [Char.ofNat, dif_pos h.isValidChar]
    rfl
  unfold String.utf8EncodeChar
  simp only [hv]
  cases h with
  | @one b hb hn => rw [if_pos (by omega), ofNat_eq_byte b hn]
  | @two b c h1 h2 hc hn =>
    have c1 := isTail_iff.mp hc
    unfold tailBits at hn
    rw [if_neg (by omega), if_pos (by omega), ofNat_eq_byte b (by omega),
      ofNat_eq_byte c (by omega)]
  | @three b c d h1 h2 hc hd hn =>
    have c1 := mayFollow_iff.mp hc
    have d1 := isTail_iff.mp hd
    unfold tailBits at hn
    rw [if_neg (by omega), if_neg (by omega), if_pos (by omega), ofNat_eq_byte b (by omega),
      ofNat_eq_byte c (by omega), ofNat_eq_byte d (by omega)]
  | @four b c d e h1 h2 hc hd he hn =>
    have c1 := mayFollow_iff.mp hc
    have d1 := isTail_iff.mp hd
    have e1 := isTail_iff.mp he
    unfold tailBits at hn
    rw [if_neg (by omega), if_neg (by omega), if_neg (by omega), ofNat_eq_byte b (by omega),
      ofNat_eq_byte c (by omega), ofNat_eq_byte d (by omega), ofNat_eq_byte e (by omega)]

/-! ## 4. Texts -/

theorem readChar_eq_some_iff {b : UInt8} {s t : List UInt8} {c : Char} :
    readChar b s = (some c, t) ↔ b :: s = String.utf8EncodeChar c ++ t := by
  constructor
  · intro h
    obtain ⟨n, bs, hn, rfl, hs⟩ := readChar_encodes h
    rw [hs, hn.eq_utf8EncodeChar]
  · intro h
    obtain ⟨b', s', hb, hr⟩ := (encodes_utf8EncodeChar c).readChar
    rw [hb, List.cons_append] at h
    obtain ⟨rfl, rfl⟩ := List.cons.inj h
    rw [hr, Char.ofNat_toNat]

theorem readCharsFrom_eq (seen : List (Option Char)) (s : List UInt8) :
    readCharsFrom seen s = seen.reverse ++ readChars s := by
  unfold readChars
  induction h : s.length using Nat.strongRecOn generalizing seen s with
  | ind n ih =>
    cases s with
    | nil => simp [readCharsFrom]
    | cons b s =>
      have hl := readChar_length b s
      rw [List.length_cons] at h
      rw [readCharsFrom, readCharsFrom, ih _ (by omega) _ _ rfl, ih _ (by omega) [_] _ rfl]
      simp

theorem readChars_cons (b : UInt8) (s : List UInt8) :
    readChars (b :: s) = (readChar b s).1 :: readChars (readChar b s).2 := by
  rw [readChars, readCharsFrom, readCharsFrom_eq]
  rfl

theorem readChars_eq_map_some_iff {s : List UInt8} {t : List Char} :
    readChars s = t.map some ↔ s = utf8 t := by
  induction t generalizing s with
  | nil =>
    cases s with
    | nil => simp [readChars, readCharsFrom, utf8]
    | cons b s => simp [readChars_cons, utf8]
  | cons c t ih =>
    rw [utf8, List.flatMap_cons]
    cases s with
    | nil =>
      have hne := String.utf8EncodeChar_ne_nil (c := c)
      simp [readChars, readCharsFrom, hne]
    | cons b s =>
      rw [readChars_cons, List.map_cons, List.cons.injEq, ih]
      constructor
      · rintro ⟨hc, ht⟩
        exact readChar_eq_some_iff.mp (Prod.ext hc ht)
      · intro h
        rw [readChar_eq_some_iff.mpr h]
        exact ⟨rfl, rfl⟩

theorem ite_all_isSome_eq_some_iff {cs : List (Option Char)} {t : List Char} :
    (if cs.all (·.isSome) then some (cs.filterMap id) else none) = some t ↔ cs = t.map some := by
  constructor
  · intro h
    obtain ⟨hall, ht⟩ := Option.ite_none_right_eq_some.mp h
    obtain rfl := Option.some.inj ht
    clear h ht
    induction cs with
    | nil => rfl
    | cons c cs ih =>
      rw [List.all_cons, Bool.and_eq_true] at hall
      obtain ⟨d, rfl⟩ := Option.isSome_iff_exists.mp hall.1
      exact congrArg (some d :: ·) (ih hall.2)
  · rintro rfl
    simp

/-- Bytes are a text exactly if they are the text in UTF-8. -/
theorem ofUtf8?_eq_some_iff {s : List UInt8} {t : List Char} : ofUtf8? s = some t ↔ s = utf8 t := by
  rw [← readChars_eq_map_some_iff]
  exact ite_all_isSome_eq_some_iff

end MarkupLint.Text
