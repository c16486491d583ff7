import Mathlib
import MarkupLint.Proofs.GlobLanguage
import MarkupLint.Proofs.Slices

/-!
# Patterns that float

A pattern is matched against a path as it is spelled, so it may match a path and not the same path
with a dot and a slash before it. A pattern that starts with any folders, or with any characters,
and goes on with a name floats: what it matches first takes in the dot and the slash, and gives them
back as well, since no name starts with them.

Results:
1. `startsName_of_mem`: what parts that start with a name stand for.
2. `mem_mul_dot`, `mem_globLanguage_dot`: what a floating pattern stands for.
3. `isMatch_dotted`: a floating pattern matches a path with a dot before it or without.
-/

namespace MarkupLint

/-! ## Definitions -/

/-- The path with a dot and a slash before it. -/
def Path.dotted (p : Path) : Path := ⟨dot ++ slash :: p.bytes⟩

namespace Glob

/-- The parts start with a character of a name, which is not a dot before a slash. -/
def startWithName : List Part → Bool
  | .char '.' :: .char c :: _ => c != '/'
  | .char c :: _ => c != '/' && c != '.'
  | _ => false

/-- The parts start with any folders or characters, and then end or go on with a name. -/
def partsFloat : List Part → Bool
  | [.leading] => true
  | .leading :: .anyChars :: ps => ps.isEmpty || startWithName ps
  | .leading :: ps => startWithName ps
  | .anyChars :: ps => ps.isEmpty || startWithName ps
  | _ => false

/-- The pattern floats. -/
def floats (pattern : String) : Bool :=
  match parse {} pattern.toList with
  | .ok ps => partsFloat ps
  | .error _ => false

/-- The word does not start with a slash, nor with a dot and a slash. -/
def StartsName (w : List Char) : Prop := ∀ u, w ≠ '/' :: u ∧ w ≠ '.' :: '/' :: u

/-! ## 1. Names -/

/-- A character that is no ASCII character starts with no ASCII byte. -/
theorem byteChars_char (c : Char) : ∃ b bs, byteChars (String.utf8EncodeChar c) = b :: bs ∧
    (b = c ∨ 128 ≤ b.toNat) := by
  rcases Text.utf8EncodeChar_cases c with ⟨hc, he⟩ | ⟨-, hb⟩
  · have hn : (UInt8.ofNat c.toNat).toNat = c.toNat := by
      rw [UInt8.toNat_ofNat']
      omega
    refine ⟨c, [], ?_, Or.inl rfl⟩
    rw [he, byteChars, List.map_singleton, hn, Char.ofNat_toNat]
  · have hne : String.utf8EncodeChar c ≠ [] := String.utf8EncodeChar_ne_nil
    obtain ⟨b, bs, he⟩ := List.exists_cons_of_ne_nil hne
    have hn : (Char.ofNat b.toNat).toNat = b.toNat := by
      have hlt := b.toNat_lt
      rw [Char.toNat_ofNat, if_pos]
      exact Or.inl (by omega)
    rw [he] at hb ⊢
    refine ⟨_, _, rfl, Or.inr ?_⟩
    rw [hn]
    exact hb b List.mem_cons_self

theorem byteChars_char_head {c a : Char} (hc : c ≠ a) (ha : a.toNat < 128) :
    ∃ b bs, byteChars (String.utf8EncodeChar c) = b :: bs ∧ b ≠ a := by
  obtain ⟨b, bs, he, hb⟩ := byteChars_char c
  refine ⟨b, bs, he, ?_⟩
  rintro rfl
  rcases hb with rfl | hb
  · exact hc rfl
  · omega

/-- What parts that start with a name stand for starts with a name. -/
theorem startsName_of_mem {d : Dialect} {ps : List Part} (h : startWithName ps = true)
    {w : List Char} (hw : w ∈ partsLanguage d ps) : StartsName w := by
  unfold startWithName at h
  split at h
  · next c ps =>
    rw [partsLanguage, partsLanguage] at hw
    obtain ⟨x, rfl, y, hy, rfl⟩ := Language.mem_mul.mp hw
    obtain ⟨x, rfl, z, -, rfl⟩ := Language.mem_mul.mp hy
    obtain ⟨b, bs, he, hb⟩ := byteChars_char_head (bne_iff_ne.mp h) (by decide)
    have hdot : byteChars (String.utf8EncodeChar '.') = ['.'] := by decide
    rw [hdot, he]
    intro u
    simp [hb]
  · next c ps _ =>
    rw [partsLanguage] at hw
    obtain ⟨x, rfl, y, -, rfl⟩ := Language.mem_mul.mp hw
    obtain ⟨hslash, hdot⟩ := (Bool.and_eq_true _ _).mp h
    obtain ⟨b, bs, he, hb⟩ := byteChars_char_head (bne_iff_ne.mp hslash) (by decide)
    obtain ⟨b', bs', he', hb'⟩ := byteChars_char_head (bne_iff_ne.mp hdot) (by decide)
    rw [he] at he'
    obtain ⟨rfl, -⟩ := List.cons.inj he'
    rw [he]
    intro u
    simp [hb, hb']
  · cases h

/-! ## 2. Languages -/

/-- If the first language takes in the dot and the slash and gives them back, and what the second
one holds starts with a name, then the dot and the slash make no difference. -/
theorem mem_mul_dot {F L : Language Char} (hF : ∀ u, '.' :: '/' :: u ∈ F ↔ u ∈ F)
    (hL : ∀ w ∈ L, StartsName w) (w : List Char) : '.' :: '/' :: w ∈ F * L ↔ w ∈ F * L := by
  constructor
  · intro h
    obtain ⟨u, hu, v, hv, he⟩ := Language.mem_mul.mp h
    cases u with
    | nil => exact absurd he (hL v hv w).2
    | cons a u =>
      cases u with
      | nil => exact absurd (List.cons.inj he).2 (hL v hv w).1
      | cons b u =>
        simp only [List.cons_append, List.cons.injEq] at he
        obtain ⟨rfl, rfl, rfl⟩ := he
        exact Language.append_mem_mul ((hF u).mp hu) hv
  · intro h
    obtain ⟨u, hu, v, hv, rfl⟩ := Language.mem_mul.mp h
    exact Language.append_mem_mul ((hF u).mpr hu) hv

theorem mem_leading_dot (d : Dialect) (u : List Char) :
    '.' :: '/' :: u ∈ Part.language d .leading ↔ u ∈ Part.language d .leading := by
  rw [Part.language]
  constructor
  · rintro (h | ⟨x, h⟩)
    · cases h
    · rcases List.eq_nil_or_concat u with rfl | ⟨v, c, rfl⟩
      · exact Or.inl rfl
      · refine Or.inr ⟨v, ?_⟩
        rw [List.concat_eq_append, ← List.cons_append, ← List.cons_append] at h
        rw [List.concat_eq_append, (List.append_inj' h rfl).2]
  · rintro (rfl | ⟨x, rfl⟩)
    · exact Or.inr ⟨['.'], rfl⟩
    · exact Or.inr ⟨'.' :: '/' :: x, rfl⟩

theorem mem_anyChars {d : Dialect} (hd : d.slashIsApart = false) (u : List Char) :
    u ∈ Part.language d .anyChars := by
  rw [Part.language]
  intro h
  rw [hd] at h
  cases h

theorem startsName_of_isEmpty_or {d : Dialect} {ps : List Part}
    (h : (ps.isEmpty || startWithName ps) = true) : ∀ w ∈ partsLanguage d ps, StartsName w := by
  intro w hw
  rcases (Bool.or_eq_true _ _).mp h with he | hs
  · obtain rfl := List.isEmpty_iff.mp he
    obtain rfl : w = [] := hw
    intro u
    simp
  · exact startsName_of_mem hs hw

/-- What a floating pattern stands for, it stands for with a dot and a slash before it as well. -/
theorem mem_globLanguage_dot {d : Dialect} (hd : d.slashIsApart = false) {ps : List Part}
    (h : partsFloat ps = true) (w : List Char) :
    '.' :: '/' :: w ∈ globLanguage d ps ↔ w ∈ globLanguage d ps := by
  unfold partsFloat at h
  split at h
  · exact iff_of_true trivial trivial
  · next ps =>
    have hall (u : List Char) : u ∈ Part.language d .leading * Part.language d .anyChars :=
      Language.mem_mul.mpr ⟨[], Or.inl rfl, u, mem_anyChars hd u, rfl⟩
    have hg : globLanguage d (.leading :: .anyChars :: ps) =
        Part.language d .leading * Part.language d .anyChars * partsLanguage d ps := by
      rw [mul_assoc]
      rfl
    rw [hg]
    exact mem_mul_dot (fun u => iff_of_true (hall _) (hall u)) (startsName_of_isEmpty_or h) w
  · next ps hne _ =>
    have hg : globLanguage d (.leading :: ps) =
        Part.language d .leading * partsLanguage d ps := by
      cases ps with
      | nil => exact absurd rfl hne
      | cons p ps => rfl
    rw [hg]
    exact mem_mul_dot (mem_leading_dot d) (fun w => startsName_of_mem h) w
  · next ps =>
    have hall := mem_anyChars hd
    have hg : globLanguage d (.anyChars :: ps) =
        Part.language d .anyChars * partsLanguage d ps := rfl
    rw [hg]
    exact mem_mul_dot (fun u => iff_of_true (hall _) (hall u)) (startsName_of_isEmpty_or h) w
  · cases h

/-! ## 3. Matching -/

/-- A floating pattern matches a path with a dot and a slash before it if and only if it matches the
path. -/
theorem isMatch_dotted {text : String} (hf : floats text = true) {g : Glob}
    (hg : Glob.ofText {} text = .ok g) (p : Path) : g.isMatch p.dotted = g.isMatch p := by
  rw [floats] at hf
  cases hp : parse {} text.toList with
  | error e =>
    rw [hp] at hf
    cases hf
  | ok ps =>
    rw [hp] at hf
    have hw : byteChars p.dotted.bytes = '.' :: '/' :: byteChars p.bytes := rfl
    rw [Bool.eq_iff_iff, isMatch_iff hp hg, isMatch_iff hp hg, hw]
    exact mem_globLanguage_dot rfl hf _

example : floats "**/*.html" = true := by decide +kernel

example : floats "site/**/*.html" = false := by decide +kernel

end Glob

end MarkupLint
