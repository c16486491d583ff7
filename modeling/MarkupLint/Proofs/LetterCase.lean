import Mathlib
import MarkupLint.Proofs.Reading
import MarkupLint.Proofs.Slices

/-!
# Capitals and small letters

No decision of the tokenizer looks at the case of an ASCII letter: what it looks for has no other
case, like `<` or a blank, or is compared ignoring case. So it commutes with writing small letters
for capitals, step by step, and two texts that differ in case alone fall into events that differ in
case alone.

Results:
1. `toLower_eq_iff`, `isPrefixOf_lower`, `breakSuffix_lower`, `breakAfter_lower`: tests and splits
   that do not see the case.
2. `scanPiece_lower`: the piece at the front of a text.
3. `next_lower`, `Trace.lower`, `tokenize_lower`: one step, a trace, and the whole text.
4. `tokenize_congr`, `boundary_congr`: two texts that differ in case alone.
5. `tokenize_withSmallNames`: a text whose element names are rewritten in small letters keeps its
   events, with their names in small letters.
-/

namespace MarkupLint.Text

/-- The text with small letters in place of capitals. -/
def lower (s : List Char) : List Char := s.map Char.toLower

end MarkupLint.Text

namespace MarkupLint.Markup

open MarkupLint.Text

/-! ## Definitions -/

def Piece.lower (u : Piece) : Piece :=
  ⟨u.kind, u.name.map Text.lower, Text.lower u.raw, Text.lower u.rest⟩

def Event.lower (e : Event) : Event :=
  { e with raw := Text.lower e.raw, tagName := e.tagName.map Text.lower }

def Cursor.lower (c : Cursor) : Cursor := { c with rest := Text.lower c.rest }

/-- The events differ in the case of ASCII letters at most. -/
structure Event.SameIgnoringCase (e f : Event) : Prop where
  kind : e.kind = f.kind
  position : e.position = f.position
  raw : sameIgnoringCase e.raw f.raw = true
  tagName : Option.Rel (fun m n => sameIgnoringCase m n = true) e.tagName f.tagName

/-- If the event has a name, its text is that of a tag with this name. -/
def Event.IsTagText (e : Event) : Prop :=
  ∀ name ∈ e.tagName, ∃ inside, e.raw = nameLead e.kind ++ name ++ inside

/-- The text of an event with its element name in small letters. -/
def Event.smallNameRaw (e : Event) : List Char :=
  match e.tagName with
  | none => e.raw
  | some name =>
    nameLead e.kind ++ Text.lower name ++ e.raw.drop (nameLead e.kind ++ name).length

/-- The event with its element name in small letters, in its text too. -/
def Event.withSmallName (e : Event) : Event :=
  { e with raw := e.smallNameRaw, tagName := e.tagName.map Text.lower }

/-- The text with all its element names in small letters. -/
def withSmallNames (s : List Char) : List Char := written ((tokenize s).1.map Event.withSmallName)

end MarkupLint.Markup

/-! ## 1. Tests and splits that do not see the case -/

namespace MarkupLint.Text

theorem toLower_eq_self {c : Char} (h : c.isAlpha = false) : c.toLower = c := by
  refine Char.toLower_eq_of_not_isUpper fun hu => ?_
  rw [Char.isAlpha, hu, Bool.true_or] at h
  cases h

/-- A character that is no letter has no other case. -/
theorem toLower_eq_iff {c d : Char} (hd : d.isAlpha = false) : c.toLower = d ↔ c = d := by
  constructor
  · exact eq_of_toLower_eq hd
  · rintro rfl
    exact toLower_eq_self hd

theorem toLower_beq {c d : Char} (hd : d.isAlpha = false) : (c.toLower == d) = (c == d) := by
  rw [Bool.eq_iff_iff, beq_iff_eq, beq_iff_eq, toLower_eq_iff hd]

theorem isBlank_toLower (c : Char) : isBlank c.toLower = isBlank c := by
  cases h : c.isAlpha with
  | false => rw [toLower_eq_self h]
  | true =>
    rw [isBlank_of_isAlpha h, isBlank_of_isAlpha ((Char.isAlpha_toLower_eq_isAlpha c).trans h)]

/-- Both cases of a letter take one byte. -/
theorem utf8Size_toLower (c : Char) : c.toLower.utf8Size = c.utf8Size := by
  rcases Nat.lt_or_ge c.toNat 128 with h | h
  · have hone : ∀ d : Char, d.toNat < 128 → d.utf8Size = 1 := fun d hd =>
      Char.utf8Size_eq_one_iff.mpr (UInt32.le_iff_toNat_le.mpr (Nat.le_of_lt_succ hd))
    rw [hone c h, hone c.toLower (lowerByte_ofNat h).2]
  · rw [toLower_of_ge h]

@[simp]
theorem lower_cons (c : Char) (s : List Char) : lower (c :: s) = c.toLower :: lower s := rfl

@[simp]
theorem lower_append (s t : List Char) : lower (s ++ t) = lower s ++ lower t := List.map_append

@[simp]
theorem lower_reverse (s : List Char) : lower s.reverse = (lower s).reverse := List.map_reverse

@[simp]
theorem lower_eq_nil_iff {s : List Char} : lower s = [] ↔ s = [] := List.map_eq_nil_iff

@[simp]
theorem lower_lower (s : List Char) : lower (lower s) = lower s := by
  simp [lower]

theorem sameIgnoringCase_iff_lower {s t : List Char} :
    sameIgnoringCase s t = true ↔ lower s = lower t := sameIgnoringCase_iff

theorem sameIgnoringCase_lower (s t : List Char) :
    sameIgnoringCase s (lower t) = sameIgnoringCase s t := by
  rw [Bool.eq_iff_iff, sameIgnoringCase_iff_lower, sameIgnoringCase_iff_lower, lower_lower]

theorem sameIgnoringCase_congr {s t : List Char} (h : sameIgnoringCase s t = true)
    (u : List Char) : sameIgnoringCase s u = sameIgnoringCase t u := by
  rw [Bool.eq_iff_iff, sameIgnoringCase_iff_lower, sameIgnoringCase_iff_lower,
    sameIgnoringCase_iff_lower.mp h]

theorem startsIgnoringCase_lower (start s : List Char) :
    startsIgnoringCase start (lower s) = startsIgnoringCase start s := by
  have h : (lower s).take start.length = lower (s.take start.length) := List.map_take.symm
  rw [startsIgnoringCase, startsIgnoringCase, h, sameIgnoringCase_lower]

theorem byteLength_lower (s : List Char) : byteLength (lower s) = byteLength s := by
  induction s with
  | nil => rfl
  | cons c s ih => rw [lower_cons, byteLength_cons, byteLength_cons, utf8Size_toLower, ih]

theorem any_beq_lower {c : Char} (hc : c.isAlpha = false) (s : List Char) :
    (lower s).any (· == c) = s.any (· == c) := by
  rw [lower, List.any_map]
  exact congrArg s.any (funext fun d => toLower_beq hc)

theorem count_lower {c : Char} (hc : c.isAlpha = false) (s : List Char) :
    (lower s).count c = s.count c := by
  induction s with
  | nil => rfl
  | cons d s ih => simp [List.count_cons, ih, toLower_eq_iff hc]

theorem isPrefixOf_lower {p : List Char} (hp : p.any Char.isAlpha = false) (s : List Char) :
    p.isPrefixOf (lower s) = p.isPrefixOf s := by
  induction p generalizing s with
  | nil => rfl
  | cons c p ih =>
    cases s with
    | nil => rfl
    | cons d s =>
      rw [List.any_cons, Bool.or_eq_false_iff] at hp
      have hd : (c == d.toLower) = (c == d) := by
        rw [Bool.beq_comm, toLower_beq hp.1, Bool.beq_comm]
      simp only [lower_cons, List.isPrefixOf, hd, ih hp.2]

/-- A split before a suffix falls at the same place if the test does not see the case. -/
theorem breakSuffix_lower {test : List Char → Bool} (h : ∀ s, test (lower s) = test s)
    (s : List Char) :
    breakSuffix test (lower s) = (breakSuffix test s).map lower lower := by
  induction s with
  | nil => rfl
  | cons c s ih =>
    rw [lower_cons, breakSuffix_cons, breakSuffix_cons, ← lower_cons, h, ih]
    split <;> rfl

/-- So does a split behind a character that has no other case. -/
theorem breakAfter_lower {c : Char} (hc : c.isAlpha = false) (s : List Char) :
    breakAfter (· == c) (lower s) = (breakAfter (· == c) s).map (Prod.map lower lower) := by
  induction s with
  | nil => rfl
  | cons d s ih =>
    rw [lower_cons, breakAfter_cons, breakAfter_cons, ih]
    by_cases hd : d = c
    · simp [hd, toLower_eq_self hc]
    · have hl : d.toLower ≠ c := fun he => hd ((toLower_eq_iff hc).mp he)
      simp [hd, hl, Function.comp_def]

theorem trimEnd_lower (s : List Char) : trimEnd (lower s) = lower (trimEnd s) := by
  rw [trimEnd, trimEnd, lower_reverse, ← lower_reverse, lower, List.dropWhile_map]
  simp only [Function.comp_def, isBlank_toLower]
  rfl

end MarkupLint.Text

namespace MarkupLint.Markup

open MarkupLint.Text

/-! ## 2. Pieces -/

theorem endsName_toLower (c : Char) : endsName c.toLower = endsName c := by
  simp (disch := decide) only [endsName, isBlank_toLower, toLower_beq]

theorem elementName_lower (s : List Char) : elementName (lower s) = lower (elementName s) := by
  rw [elementName, elementName, lower, List.takeWhile_map]
  simp only [Function.comp_def, endsName_toLower]
  rfl

theorem afterName_lower (s : List Char) : afterName (lower s) = lower (afterName s) := by
  rw [afterName, afterName, lower, List.dropWhile_map]
  simp only [Function.comp_def, endsName_toLower]
  rfl

/-- Quotes open and close at the same places, for a quote has no other case. -/
theorem breakTagFrom_lower {quote : Option Char} (hq : ∀ q ∈ quote, q.isAlpha = false)
    (seen s : List Char) :
    breakTagFrom quote (lower seen) (lower s) =
      (breakTagFrom quote seen s).map (Prod.map lower lower) := by
  induction s generalizing quote seen with
  | nil => rfl
  | cons c s ih =>
    rw [lower_cons]
    cases quote with
    | some q =>
      rw [breakTagFrom, breakTagFrom, ← lower_cons c seen]
      simp only [toLower_eq_iff (hq q rfl)]
      refine ih ?_ _
      split
      · simp
      · exact hq
    | none =>
      rw [breakTagFrom, breakTagFrom, ← lower_cons c seen]
      simp (disch := decide) only [toLower_eq_iff]
      split
      · next h =>
        have hc : c.isAlpha = false := by rcases h with rfl | rfl <;> decide
        rw [toLower_eq_self hc]
        exact ih (by simp [hc]) _
      · split
        · simp
        · exact ih (by simp) _

theorem breakTag_lower (s : List Char) :
    breakTag (lower s) = (breakTag s).map (Prod.map lower lower) :=
  breakTagFrom_lower (by simp) [] s

theorem Piece.of_lower (kind : EventKind) (name : Option (List Char)) (lead : List Char)
    (parts : List Char × List Char) :
    Piece.of kind (name.map Text.lower) (Text.lower lead) (parts.map Text.lower Text.lower) =
      (Piece.of kind name lead parts).lower := by
  simp [Piece.of, Piece.lower]

theorem scanComment_lower (s : List Char) : scanComment (lower s) = (scanComment s).lower := by
  have ht : ∀ s, closesComment (lower s) = closesComment s := isPrefixOf_lower (by decide)
  rw [scanComment, scanComment, breakSuffix_lower ht, ← Piece.of_lower]
  simp [lower]

theorem scanDeclaration_lower {m : Char} (hm : m.isAlpha = false) (s : List Char) :
    (breakAfter (· == '>') (lower s)).map (Piece.of .doctype none ['<', m]) =
      ((breakAfter (· == '>') s).map (Piece.of .doctype none ['<', m])).map Piece.lower := by
  rw [breakAfter_lower (by decide), Option.map_map, Option.map_map]
  refine congrArg (Option.map · _) (funext fun parts => ?_)
  have h := Piece.of_lower .doctype none ['<', m] parts
  rw [lower_cons, lower_cons, toLower_eq_self hm] at h
  exact h

theorem scanTagEnd_lower (s : List Char) :
    scanTagEnd (lower s) = (scanTagEnd s).map Piece.lower := by
  rw [scanTagEnd, scanTagEnd, breakAfter_lower (by decide), elementName_lower, Option.map_map,
    Option.map_map]
  refine congrArg (Option.map · _) (funext fun parts => ?_)
  exact Piece.of_lower .tagEnd (some (elementName s)) ['<', '/'] parts

theorem scanTagStart_lower (s : List Char) :
    scanTagStart (lower s) = (scanTagStart s).map Piece.lower := by
  rw [scanTagStart, scanTagStart, afterName_lower, breakTag_lower, elementName_lower,
    Option.map_map, Option.map_map]
  refine congrArg (Option.map · _) (funext fun parts => ?_)
  exact Piece.of_lower .tagStart (some (elementName s)) ('<' :: elementName s) parts

/-- The cases of a piece, by its second character. -/
theorem scanPiece_open (d : Char) (t : List Char) :
    scanPiece ('<' :: d :: t) =
      if d = '!' then
        if ['-', '-'].isPrefixOf t then some (scanComment t)
        else (breakAfter (· == '>') t).map (.of .doctype none ['<', '!'])
      else if d = '?' then (breakAfter (· == '>') t).map (.of .doctype none ['<', '?'])
      else if d = '/' then if t.head?.any Char.isAlpha then scanTagEnd t else none
      else if d.isAlpha then scanTagStart (d :: t) else none := by
  by_cases h₁ : d = '!'
  · rw [h₁]
    rfl
  · by_cases h₂ : d = '?'
    · rw [h₂]
      rfl
    · by_cases h₃ : d = '/'
      · rw [h₃]
        cases t <;> rfl
      · simp only [h₁, h₂, h₃, if_false]
        unfold scanPiece
        split <;> simp_all

theorem scanPiece_of_ne {c : Char} (h : c ≠ '<') (t : List Char) : scanPiece (c :: t) = none := by
  unfold scanPiece
  split <;> simp_all

/-- The same piece stands at the front, in small letters. -/
theorem scanPiece_lower (s : List Char) : scanPiece (lower s) = (scanPiece s).map Piece.lower := by
  match s with
  | [] => rfl
  | c :: t =>
    by_cases hc : c = '<'
    · subst hc
      match t with
      | [] => rfl
      | d :: t =>
        have hh : (lower t).head?.any Char.isAlpha = t.head?.any Char.isAlpha := by
          cases t with
          | nil => rfl
          | cons e t => simp
        rw [lower_cons, lower_cons, toLower_eq_self (by decide), scanPiece_open, scanPiece_open,
          ← lower_cons, hh, Char.isAlpha_toLower_eq_isAlpha, isPrefixOf_lower (by decide),
          scanComment_lower, scanTagEnd_lower, scanTagStart_lower,
          scanDeclaration_lower (by decide), scanDeclaration_lower (by decide)]
        simp (disch := decide) only [toLower_eq_iff]
        repeat' split
        all_goals rfl
    · have hl : c.toLower ≠ '<' := fun h => hc ((toLower_eq_iff (by decide)).mp h)
      rw [lower_cons, scanPiece_of_ne hc, scanPiece_of_ne hl]
      rfl

theorem opensPiece_lower (s : List Char) : opensPiece (lower s) = opensPiece s := by
  rw [opensPiece, opensPiece, scanPiece_lower, Option.isSome_map]

/-! ## 3. The walk -/

theorem selfClosing_lower (raw : List Char) : selfClosing (lower raw) = selfClosing raw := by
  have hd : (lower raw).dropLast = lower raw.dropLast := List.map_dropLast.symm
  have hl : (lower (trimEnd raw.dropLast)).getLast? =
      (trimEnd raw.dropLast).getLast?.map Char.toLower := List.getLast?_map
  rw [selfClosing, selfClosing, hd, trimEnd_lower, hl]
  cases (trimEnd raw.dropLast).getLast? with
  | none => rfl
  | some c => simpa using toLower_beq (c := c) (by decide)

/-- The same raw text follows. -/
theorem Piece.opensRawText_lower (u : Piece) : u.lower.opensRawText = u.opensRawText := by
  obtain ⟨kind, name, raw, rest⟩ := u
  cases kind with
  | tagStart =>
    cases name with
    | none => rfl
    | some name =>
      simp only [Piece.lower, opensRawText, Option.map_some, selfClosing_lower,
        sameIgnoringCase_lower]
  | _ => rfl

theorem Position.advance_lower (p : Position) (s : List Char) :
    p.advance (lower s) = p.advance s := by
  have hs : ∀ (p : Position) c, p.step c.toLower = p.step c := by
    intro p c
    simp (disch := decide) only [step, toLower_eq_iff]
  simp only [advance, lower, List.foldl_map, hs]

theorem breakTextFrom_lower (closes : Nat) (seen s : List Char) :
    breakTextFrom closes (lower seen) (lower s) =
      (breakTextFrom closes seen s).map lower lower := by
  have ho : ∀ s, opensComment (lower s) = opensComment s := isPrefixOf_lower (by decide)
  induction s generalizing closes seen with
  | nil => simp [breakTextFrom, lower]
  | cons c s ih =>
    rw [lower_cons, breakTextFrom, breakTextFrom, ← lower_cons, ← lower_cons, breakSuffix_lower ho,
      opensPiece_lower, ih, ih]
    simp (disch := decide) only [toLower_eq_iff]
    split
    · split
      · simp
      · split
        · simp
        · rfl
    · rfl

namespace Cursor

theorem rawText_lower (c : Cursor) :
    c.lower.rawText = c.rawText.map (Prod.map Text.lower Text.lower) := by
  unfold rawText
  rw [show c.lower.pending = c.pending from rfl]
  cases c.pending with
  | none => rfl
  | some element =>
    simp only [Cursor.lower, breakSuffix_lower (startsIgnoringCase_lower _), Prod.map_fst,
      lower_eq_nil_iff]
    split <;> rfl

theorem textRun_lower (c : Cursor) (first : Char) (others : List Char) :
    c.lower.textRun first.toLower (Text.lower others) = (c.textRun first others).lower := by
  have hb := breakTextFrom_lower (if first = '>' then c.closes - 1 else c.closes) [] others
  rw [textRun, textRun, breakTextCounting, breakTextCounting, ← Piece.of_lower, ← hb]
  simp (disch := decide) only [toLower_eq_iff]
  rfl

theorem piece?_lower (c : Cursor) : c.lower.piece? = c.piece?.map Piece.lower := by
  unfold piece?
  rw [rawText_lower]
  cases c.rawText with
  | some parts => exact congrArg some (Piece.of_lower .cdata none [] parts)
  | none =>
    rw [show c.lower.rest = Text.lower c.rest from rfl]
    cases c.rest with
    | nil => rfl
    | cons first others =>
      simp only [lower_cons, Option.map_none]
      rw [← lower_cons, scanPiece_lower, textRun_lower]
      cases scanPiece (first :: others) with
      | some u => rfl
      | none => rfl

theorem emit_lower (c : Cursor) (u : Piece) :
    c.lower.emit u.lower = ((c.emit u).1.lower, (c.emit u).2.lower) := by
  have hg : (Text.lower u.raw).count '>' = u.raw.count '>' := count_lower (by decide) u.raw
  simp only [emit, Piece.opensRawText_lower]
  simp only [Piece.lower, Cursor.lower, Event.lower, Position.advance_lower, hg]

/-- One step gives the same event and the same cursor, in small letters. -/
theorem next_lower {c c' : Cursor} {e : Event} (h : c.next = some (e, c')) :
    c.lower.next = some (e.lower, c'.lower) := by
  obtain ⟨u, hu, he⟩ := piece?_of_next h
  rw [next, piece?_lower, hu, Option.map_some, Option.map_some, emit_lower, he]

/-- A trace stays one when small letters are written for capitals. -/
theorem Trace.lower {c d : Cursor} {es : List Event} (h : Trace c es d) :
    Trace c.lower (es.map Event.lower) d.lower := by
  induction h with
  | nil => exact .nil
  | cons hn _ ih => exact .cons (next_lower hn) ih

theorem ofText_lower (s : List Char) : ofText (Text.lower s) = (ofText s).lower := by
  rw [ofText, count_lower (by decide)]
  rfl

end Cursor

/-- The tokenizer commutes with writing small letters for capitals. -/
theorem tokenize_lower (s : List Char) :
    tokenize (lower s) = ((tokenize s).1.map Event.lower, (tokenize s).2) := by
  obtain ⟨d, ht, hd, hp⟩ := Cursor.trace_run (Cursor.ofText s)
  have hl := ht.lower
  rw [← Cursor.ofText_lower] at hl
  have hr := Cursor.run_of_trace hl (lower_eq_nil_iff.mpr hd)
  exact hr.trans (congrArg (_, ·) hp.symm)

/-! ## 4. Two texts -/

theorem Event.lower_eq_iff {e f : Event} : e.lower = f.lower ↔ e.SameIgnoringCase f := by
  obtain ⟨kind, raw, position, name⟩ := e
  obtain ⟨kind', raw', position', name'⟩ := f
  simp only [Event.lower, Event.mk.injEq]
  constructor
  · rintro ⟨hk, hr, hp, hn⟩
    refine ⟨hk, hp, sameIgnoringCase_iff_lower.mpr hr, ?_⟩
    match name, name', hn with
    | none, none, _ => exact .none
    | some m, some n, hn => exact .some (sameIgnoringCase_iff_lower.mpr (Option.some.inj hn))
  · rintro ⟨hk, hp, hr, hn⟩
    refine ⟨hk, sameIgnoringCase_iff_lower.mp hr, hp, ?_⟩
    cases hn with
    | none => rfl
    | some h => exact congrArg some (sameIgnoringCase_iff_lower.mp h)

/-- Lists that agree in small letters agree entry by entry, ignoring case. -/
theorem forall₂_of_lower_eq {es fs : List Event} (h : es.map Event.lower = fs.map Event.lower) :
    List.Forall₂ Event.SameIgnoringCase es fs := by
  rw [← List.forall₂_eq_eq_eq, List.forall₂_map_left_iff, List.forall₂_map_right_iff] at h
  exact h.imp fun _ _ => Event.lower_eq_iff.mp

theorem written_lower (es : List Event) : written (es.map Event.lower) = lower (written es) := by
  induction es with
  | nil => rfl
  | cons e es ih =>
    rw [List.map_cons, written_cons, written_cons, ih, lower_append]
    rfl

variable {s t : List Char}

theorem tokenize_congr (h : lower s = lower t) :
    (tokenize s).1.map Event.lower = (tokenize t).1.map Event.lower ∧
      (tokenize s).2 = (tokenize t).2 := by
  have hs := tokenize_lower s
  rw [h, tokenize_lower t, Prod.mk.injEq] at hs
  exact ⟨hs.1.symm, hs.2.symm⟩

/-- The events of texts that differ in case alone stand at the same offsets. -/
theorem boundary_congr (h : lower s = lower t) (n : Nat) :
    byteLength (written ((tokenize s).1.take n)) =
      byteLength (written ((tokenize t).1.take n)) := by
  have hw : lower (written ((tokenize s).1.take n)) = lower (written ((tokenize t).1.take n)) := by
    rw [← written_lower, ← written_lower, List.map_take, List.map_take, (tokenize_congr h).1]
  rw [← byteLength_lower, hw, byteLength_lower]

/-! ## 5. Element names in small letters -/

namespace Event

theorem isTagText {e : Event} (he : e ∈ (tokenize s).1) : e.IsTagText := by
  intro name hn
  obtain ⟨inside, hr⟩ := tag_raw he hn
  exact ⟨inside ++ ['>'], by rw [hr, List.append_assoc]⟩

theorem smallNameRaw_eq {e : Event} {name inside : List Char} (hn : e.tagName = some name)
    (hr : e.raw = nameLead e.kind ++ name ++ inside) :
    e.smallNameRaw = nameLead e.kind ++ Text.lower name ++ inside := by
  simp only [smallNameRaw, hn, hr, List.drop_left]

theorem withSmallName_lower {e : Event} (h : e.IsTagText) : e.withSmallName.lower = e.lower := by
  have hl : ∀ k, Text.lower (nameLead k) = nameLead k := fun k => by cases k <;> decide
  have hr : Text.lower e.smallNameRaw = Text.lower e.raw := by
    cases hn : e.tagName with
    | none => simp only [smallNameRaw, hn]
    | some name =>
      obtain ⟨inside, hr⟩ := h name hn
      rw [smallNameRaw_eq hn hr, hr]
      simp [hl]
  simp only [Event.lower, withSmallName, hr, Option.map_map, Function.comp_def, lower_lower]

theorem withSmallName_isTagText (e : Event) : e.withSmallName.IsTagText := by
  intro name hm
  obtain ⟨m, hn, rfl⟩ := Option.map_eq_some_iff.mp hm
  exact ⟨_, by simp only [withSmallName, smallNameRaw, hn]; rfl⟩

/-- The text of a tag determines its name, given the length of the name. -/
theorem eq_of_raw_eq {e f : Event} (h : e.SameIgnoringCase f) (hr : e.raw = f.raw)
    (he : e.IsTagText) (hf : f.IsTagText) : e = f := by
  obtain ⟨hk, hp, _, hn⟩ := h
  obtain ⟨kind, raw, position, name⟩ := e
  obtain ⟨kind', raw', position', name'⟩ := f
  simp only at hk hp hr hn
  subst hk hp hr
  cases hn with
  | none => rfl
  | some hs =>
    obtain ⟨a, ha⟩ := he _ rfl
    obtain ⟨b, hb⟩ := hf _ rfl
    rw [ha, List.append_assoc, List.append_assoc] at hb
    rw [(List.append_inj (List.append_cancel_left hb) (sameIgnoringCase_length hs)).1]

end Event

theorem eq_of_written_eq {es fs : List Event} (h : List.Forall₂ Event.SameIgnoringCase es fs)
    (hw : written es = written fs) (he : ∀ e ∈ es, e.IsTagText) (hf : ∀ f ∈ fs, f.IsTagText) :
    es = fs := by
  induction h with
  | nil => rfl
  | @cons e f es fs hef _ ih =>
    obtain ⟨hr, hw'⟩ := List.append_inj hw (sameIgnoringCase_length hef.raw)
    obtain ⟨he, hes⟩ := List.forall_mem_cons.mp he
    obtain ⟨hf, hfs⟩ := List.forall_mem_cons.mp hf
    rw [Event.eq_of_raw_eq hef hr he hf, ih hw' hes hfs]

theorem map_withSmallName_lower (s : List Char) :
    ((tokenize s).1.map Event.withSmallName).map Event.lower = (tokenize s).1.map Event.lower := by
  rw [List.map_map]
  exact List.map_congr_left fun e he => Event.withSmallName_lower (Event.isTagText he)

theorem withSmallNames_lower (s : List Char) : lower (withSmallNames s) = lower s := by
  rw [withSmallNames, ← written_lower, map_withSmallName_lower, written_lower, written_tokenize]

/-- A text with its element names in small letters has the same events, with their names in small
letters. -/
theorem tokenize_withSmallNames (s : List Char) :
    (tokenize (withSmallNames s)).1 = (tokenize s).1.map Event.withSmallName := by
  refine eq_of_written_eq (forall₂_of_lower_eq ?_) (written_tokenize _)
    (fun _ => Event.isTagText) ?_
  · rw [(tokenize_congr (withSmallNames_lower s)).1, map_withSmallName_lower]
  · rintro f hf
    obtain ⟨e, _, rfl⟩ := List.mem_map.mp hf
    exact e.withSmallName_isTagText

end MarkupLint.Markup
