import MarkupLint.Proofs.Reading
import MarkupLint.Proofs.Slices

/-!
# The tokenizer by byte offsets

The scanner reads a text in place: it keeps the byte offset it has come to, finds the end of each
event by searches over bytes and characters, and cuts the event out by a slice. A slice that does
not stand between two characters, in order and inside the text, ends the scanner with an error.

This module shows that no slice does, and that the scanner yields the events of the cursor:

1. `scanMarkup_eq`: markup is found where `scanPiece` finds it, and ends where its text does.
2. `nextMarkupStart_eq`: the search for the end of a text run stops where `breakText` splits.
3. `rawTextStop_eq`: the search for the end of raw text stops where the element is closed.
4. `next_tracks`: one step of the scanner is one step of the cursor.
5. `scanner_runs`: the run of the scanner.
-/

namespace MarkupLint.Markup

open MarkupLint.Text

/-! ## Definitions -/

/-- Where a piece of markup ends, and what it is. -/
structure Bounds where
  stop : Nat
  kind : EventKind
  tagName : Option (List Char)
  selfClosing : Bool

def Bounds.opensRawText (m : Bounds) : Option (List Char) :=
  if m.kind = .tagStart ∧ m.selfClosing = false then
    m.tagName.bind fun name => rawTextElements.find? (sameIgnoringCase · name)
  else none

/-- A text, and where the scanner is in it. -/
structure Scanner where
  input : List Char
  /-- The byte offset of what is still to be read. -/
  offset : Nat := 0
  position : Position := {}
  /-- The element whose raw text comes next. -/
  pending : Option (List Char) := none
  /-- The offset of the last `>` of the text. -/
  lastClose : Option Nat

/-- The length of the element name at the front of a text. -/
def nameLength (s : List Char) : Nat := (findOffset (atChar endsName) s).getD (byteLength s)

def isAlphaByte (b : UInt8) : Bool := (65 ≤ b && b ≤ 90) || (97 ≤ b && b ≤ 122)

/-- The offset of the `>` that closes a tag; `offset` is the offset of the text and `quote` the
quote that is open. -/
def tagCloseFrom (offset : Nat) (quote : Option Char) : List Char → Option Nat
  | [] => none
  | c :: s =>
    match quote with
    | some q => tagCloseFrom (offset + c.utf8Size) (if c = q then none else some q) s
    | none =>
      if c = '"' ∨ c = '\'' then tagCloseFrom (offset + c.utf8Size) (some c) s
      else if c = '>' then some offset
      else tagCloseFrom (offset + c.utf8Size) none s

/-- The offset in a tag of the `>` that closes it, from the given offset on. -/
def findTagClose (tag : List Char) (start : Nat) : Except BadSlice (Option Nat) := do
  let attributes ← sliceFrom tag start
  pure (tagCloseFrom start none attributes)

namespace Scanner

def ofText (s : List Char) : Scanner := { input := s, lastClose := lastOffset '>' s }

/-- The comment at an offset, given the text from there on. -/
def commentAt (c : Scanner) (start : Nat) (rest : List Char) : Except BadSlice (Option Bounds) := do
  let inside ← sliceFrom rest 2
  match findOffset closesComment inside with
  | none => pure (some ⟨byteLength c.input, .comment, none, false⟩)
  | some offset => pure (some ⟨start + 2 + offset + 3, .comment, none, false⟩)

/-- The declaration at an offset, given the text from there on. -/
def declarationAt (start : Nat) (rest : List Char) : Except BadSlice (Option Bounds) :=
  match findOffset (atChar (· == '>')) rest with
  | none => pure none
  | some close => pure (some ⟨start + close + 1, .doctype, none, false⟩)

/-- The closing tag at an offset, given the text from there on. -/
def tagEndAt (c : Scanner) (start : Nat) (rest : List Char) : Except BadSlice (Option Bounds) := do
  if (utf8 rest)[2]?.any isAlphaByte then
    let nameOn ← sliceFrom rest 2
    let nameStop := 2 + nameLength nameOn
    match findOffset (atChar (· == '>')) rest with
    | none => pure none
    | some close =>
      let name ← slice c.input (start + 2) (start + nameStop)
      pure (some ⟨start + close + 1, .tagEnd, some name, false⟩)
  else pure none

/-- The opening tag at an offset, given the text from there on. -/
def tagStartAt (c : Scanner) (start : Nat) (rest : List Char) :
    Except BadSlice (Option Bounds) := do
  let nameOn ← sliceFrom rest 1
  let nameStop := 1 + nameLength nameOn
  match ← findTagClose rest nameStop with
  | none => pure none
  | some close =>
    let name ← slice c.input (start + 1) (start + nameStop)
    let inside ← sliceTo rest close
    pure (some ⟨start + close + 1, .tagStart, some name, (trimEnd inside).getLast? == some '/'⟩)

/-- The piece of markup that the `<` at an offset opens, if it opens one. -/
def scanMarkup (c : Scanner) (start : Nat) : Except BadSlice (Option Bounds) := do
  let rest ← sliceFrom c.input start
  if opensComment rest then c.commentAt start rest
  else
    match (utf8 rest)[1]? with
    | none => pure none
    | some b =>
      if b = 0x21 ∨ b = 0x3F then declarationAt start rest
      else if b = 0x2F then c.tagEndAt start rest
      else if isAlphaByte b then c.tagStartAt start rest
      else pure none

/-- The offset where raw text ends. -/
def rawTextStop (c : Scanner) (element : List Char) : Except BadSlice Nat := do
  let rest ← sliceFrom c.input c.offset
  match findWindow (utf8 ('<' :: '/' :: element)) (utf8 rest) with
  | none => pure (byteLength c.input)
  | some offset => pure (c.offset + offset)

/-- The offset of the first comment from an offset on, or the end. -/
def commentStart (c : Scanner) (start : Nat) : Except BadSlice Nat := do
  let rest ← sliceFrom c.input start
  match findOffset opensComment rest with
  | none => pure (byteLength c.input)
  | some offset => pure (start + offset)

/-- The offset of the first `<` from an offset on that opens markup, or the end. Behind the last `>`
only a comment can open. -/
def nextMarkupStart (c : Scanner) (search : Nat) : Except BadSlice Nat :=
  match _hs : sliceFrom c.input search with
  | .error e => .error e
  | .ok rest =>
    match _hf : findOffset (atChar (· == '<')) rest with
    | none => .ok (byteLength c.input)
    | some offset =>
      let candidate := search + offset
      if c.lastClose.all (· < candidate) then c.commentStart candidate
      else do
        match ← c.scanMarkup candidate with
        | some _ => pure candidate
        | none => c.nextMarkupStart (candidate + 1)
termination_by byteLength c.input - search
decreasing_by
  have := sliceFrom_length _hs
  have := findOffset_lt _hf
  omega

/-- The piece of markup at an offset, given the text from there on, if it opens one. -/
def markupAt (c : Scanner) (start : Nat) (rest : List Char) : Except BadSlice (Option Bounds) :=
  if rest.head? = some '<' then c.scanMarkup start else pure none

def withPending (c : Scanner) (pending : Option (List Char)) : Scanner :=
  { c with pending := pending }

/-- Cuts out the event that ends at the given offset, and goes on behind it. -/
def emit (c : Scanner) (kind : EventKind) (stop : Nat) (tagName : Option (List Char)) :
    Except BadSlice (Option (Event × Scanner)) := do
  let raw ← slice c.input c.offset stop
  let passed ← slice c.input c.offset stop
  pure (some (⟨kind, raw, c.position, tagName⟩,
    { c with offset := stop, position := c.position.advance passed }))

/-- The next event where no raw text is due. -/
def nextPiece (c : Scanner) : Except BadSlice (Option (Event × Scanner)) := do
  let rest ← sliceFrom c.input c.offset
  match ← c.markupAt c.offset rest with
  | some m => (c.withPending m.opensRawText).emit m.kind m.stop m.tagName
  | none =>
    let rest ← sliceFrom c.input c.offset
    let first := (rest.head?.map Char.utf8Size).getD 1
    let stop ← c.nextMarkupStart (c.offset + first)
    c.emit .text stop none

/-- The next event, and the scanner behind it; `none` at the end of the text. -/
def next (c : Scanner) : Except BadSlice (Option (Event × Scanner)) :=
  if byteLength c.input ≤ c.offset then pure none
  else
    let taken := c.withPending none
    match c.pending with
    | none => taken.nextPiece
    | some element => do
      let stop ← c.rawTextStop element
      if c.offset < stop then taken.emit .cdata stop none else taken.nextPiece

/-- `Runs c es p`: from here on the scanner yields the events `es` and ends at `p`, with no bad
slice on the way. -/
inductive Runs : Scanner → List Event → Position → Prop
  | stop {c : Scanner} : c.next = .ok none → Runs c [] c.position
  | step {c c' : Scanner} {e : Event} {es : List Event} {p : Position} :
      c.next = .ok (some (e, c')) → Runs c' es p → Runs c (e :: es) p

end Scanner

/-- The bounds of a piece at an offset. -/
def Piece.bounds (start : Nat) (u : Piece) : Bounds :=
  ⟨start + byteLength u.raw, u.kind, u.name, u.kind == .tagStart && selfClosing u.raw⟩

/-! ## 1. Markup -/

theorem nameLength_eq (s : List Char) : nameLength s = byteLength (elementName s) := by
  have hb : (breakSuffix (atChar endsName) s).1 = elementName s := by
    rw [breakSuffix_atChar]
    rfl
  rw [nameLength, ← hb]
  rcases findOffset_cases (atChar endsName) s with ⟨hf, he⟩ | hf
  · rw [hf, he]
    rfl
  · rw [hf]
    rfl

/-- The walk to the `>` of a tag by offsets takes the steps of `breakTagFrom`. -/
theorem tagCloseFrom_eq (offset : Nat) (quote : Option Char) (s : List Char) :
    (tagCloseFrom offset quote s).map (· + 1) =
      (breakTagFrom quote [] s).map fun r => offset + byteLength r.1 := by
  induction s generalizing offset quote with
  | nil => rfl
  | cons c s ih =>
    have hseen : ∀ q, (breakTagFrom q [c] s).map (fun r => offset + byteLength r.1) =
        (breakTagFrom q [] s).map fun r => offset + c.utf8Size + byteLength r.1 := by
      intro q
      rw [GrammarLemmas.breakTagFrom_seen, Option.map_map]
      simp [Function.comp_def, Nat.add_assoc]
    -- in each case both walks go on behind `c`, apart from a `>` outside quotes
    cases quote with
    | some q => rw [tagCloseFrom, breakTagFrom, hseen, ih]
    | none =>
      rw [tagCloseFrom, breakTagFrom]
      split
      · rw [hseen, ih]
      · split
        · next hc =>
          subst hc
          rfl
        · rw [hseen, ih]

theorem isAlphaByte_ofNat {c : Char} (h : c.toNat < 128) :
    isAlphaByte (UInt8.ofNat c.toNat) = c.isAlpha := by
  have hall : ∀ n < 128, isAlphaByte (UInt8.ofNat (Char.ofNat n).toNat) =
      (Char.ofNat n).isAlpha := by
    decide +kernel
  have hc := hall c.toNat h
  rwa [Char.ofNat_toNat] at hc

theorem isAlpha_of_ge {c : Char} (h : 128 ≤ c.toNat) : c.isAlpha = false := by
  rw [Bool.eq_false_iff, ne_eq, isAlpha_iff]
  omega

/-- The first byte of a text stands for its first character as far as ASCII goes. -/
theorem bytes_first (c : Char) (s : List Char) :
    ∃ b, (utf8 (c :: s))[0]? = some b ∧ isAlphaByte b = c.isAlpha ∧
      ∀ d : Char, d.toNat < 128 → (b = UInt8.ofNat d.toNat ↔ c = d) := by
  rcases utf8EncodeChar_cases c with ⟨hc, _⟩ | ⟨hc, hb⟩
  · refine ⟨UInt8.ofNat c.toNat, by rw [utf8_cons_ascii hc]; rfl, isAlphaByte_ofNat hc, ?_⟩
    exact fun d hd => ofNat_toNat_inj hc hd
  · obtain ⟨b, t, ht⟩ := List.exists_cons_of_ne_nil (String.utf8EncodeChar_ne_nil (c := c))
    have hb : 128 ≤ b.toNat := hb b (by simp [ht])
    refine ⟨b, by rw [utf8_cons, ht]; rfl, ?_, ?_⟩
    · rw [isAlpha_of_ge hc, Bool.eq_false_iff]
      intro ha
      simp only [isAlphaByte, Bool.or_eq_true, Bool.and_eq_true, decide_eq_true_eq,
        UInt8.le_iff_toNat_le] at ha
      have hle : b.toNat ≤ 122 := by
        rcases ha with ha | ha
        · exact Nat.le_trans ha.2 (by decide)
        · exact ha.2
      omega
    · intro d hd
      constructor
      · rintro rfl
        rw [UInt8.toNat_ofNat', Nat.mod_eq_of_lt (by omega)] at hb
        omega
      · rintro rfl
        omega

theorem breakAfter_append_of_not_mem {lead : List Char} (hl : '>' ∉ lead) (t : List Char) :
    breakAfter (· == '>') (lead ++ t) =
      (breakAfter (· == '>') t).map fun r => (lead ++ r.1, r.2) := by
  induction lead with
  | nil => simp
  | cons c lead ih =>
    rw [List.mem_cons, not_or] at hl
    rw [List.cons_append, breakAfter_cons, ih hl.2, if_neg (by simpa using Ne.symm hl.1),
      Option.map_map]
    rfl

/-- A search for the `>` of a piece finds it where `breakAfter` splits behind it. -/
theorem closeOffset_cases {lead : List Char} (hl : '>' ∉ lead) (t : List Char) :
    breakAfter (· == '>') t = none ∧ findOffset (atChar (· == '>')) (lead ++ t) = none ∨
      ∃ a b close, breakAfter (· == '>') t = some (a, b) ∧
        findOffset (atChar (· == '>')) (lead ++ t) = some close ∧
        close + 1 = byteLength (lead ++ a) := by
  have h := findOffset_atChar '>' (lead ++ t)
  rw [breakAfter_append_of_not_mem hl, Option.map_map] at h
  cases hb : breakAfter (· == '>') t with
  | none =>
    rw [hb] at h
    exact Or.inl ⟨rfl, Option.map_eq_none_iff.mp h⟩
  | some r =>
    rw [hb] at h
    obtain ⟨close, hc, he⟩ := Option.map_eq_some_iff.mp h
    exact Or.inr ⟨r.1, r.2, close, rfl, hc, he⟩

namespace Scanner

variable {c : Scanner} {before t : List Char}

theorem sliceFrom_input (h : c.input = before ++ t) :
    sliceFrom c.input (byteLength before) = .ok t := by
  rw [h]
  exact sliceFrom_append before t

theorem commentAt_eq (h : c.input = before ++ '<' :: '!' :: t) :
    c.commentAt (byteLength before) ('<' :: '!' :: t) =
      .ok (some ((scanComment t).bounds (byteLength before))) := by
  have hs : sliceFrom ('<' :: '!' :: t) 2 = .ok t := sliceFrom_append ['<', '!'] t
  have hp := breakSuffix_append closesComment t
  have hl : byteLength ['<', '!'] = 2 := rfl
  rw [commentAt, hs]
  simp only [bind, Except.bind, findOffset_eq]
  rcases breakSuffix_snd closesComment t with hn | hc
  · rw [hn, List.append_nil] at hp
    have hraw : (scanComment t).raw = '<' :: '!' :: t := by
      simp [scanComment, Piece.of, hn, hp]
    rw [if_pos hn, Piece.bounds, hraw, h, byteLength_append]
    rfl
  · obtain ⟨r, hr⟩ := closesComment_iff.mp hc
    have hne : (breakSuffix closesComment t).2 ≠ [] := by
      rw [hr]
      simp
    have hraw : (scanComment t).raw =
        ['<', '!'] ++ (breakSuffix closesComment t).1 ++ ['-', '-', '>'] := by
      simp [scanComment, Piece.of, hr]
    have hl' : byteLength ['-', '-', '>'] = 3 := rfl
    rw [if_neg hne, Piece.bounds, hraw, byteLength_append, byteLength_append, hl, hl']
    simp only [← Nat.add_assoc]
    rfl

theorem declarationAt_eq {m : Char} (hm : m ≠ '>') :
    declarationAt (byteLength before) ('<' :: m :: t) =
      .ok (((breakAfter (· == '>') t).map (.of .doctype none ['<', m])).map
        (Piece.bounds (byteLength before))) := by
  have hl : '>' ∉ ['<', m] := by simp [Ne.symm hm]
  rw [declarationAt, show '<' :: m :: t = ['<', m] ++ t from rfl]
  rcases closeOffset_cases hl t with ⟨hb, hf⟩ | ⟨a, b, close, hb, hf, he⟩
  · rw [hb, hf]
    rfl
  · rw [hb, hf]
    simp only [Nat.add_assoc, he]
    rfl

/-- The name in a tag is cut out between its bounds. -/
theorem slice_name (lead : List Char) (h : c.input = before ++ (lead ++ t)) :
    slice c.input (byteLength before + byteLength lead)
      (byteLength before + (byteLength lead + nameLength t)) = .ok (elementName t) := by
  have hs := slice_append (before ++ lead) (elementName t) (afterName t)
  rw [elementName_append_afterName, List.append_assoc, ← h, byteLength_append] at hs
  rw [nameLength_eq, ← Nat.add_assoc]
  exact hs

theorem tagEndAt_eq (h : c.input = before ++ '<' :: '/' :: t) :
    c.tagEndAt (byteLength before) ('<' :: '/' :: t) =
      .ok ((scanPiece ('<' :: '/' :: t)).map (Piece.bounds (byteLength before))) := by
  have hb : (utf8 ('<' :: '/' :: t))[2]? = (utf8 t)[0]? := by
    rw [utf8_cons_ascii (by decide), utf8_cons_ascii (by decide)]
    rfl
  rw [tagEndAt, hb]
  cases t with
  | nil => rfl
  | cons d t =>
    obtain ⟨b, hf, ha, _⟩ := bytes_first d t
    have hp : scanPiece ('<' :: '/' :: d :: t) =
        if d.isAlpha then scanTagEnd (d :: t) else none := rfl
    rw [hf, Option.any_some, ha, hp]
    split
    · have hs : sliceFrom ('<' :: '/' :: d :: t) 2 = .ok (d :: t) := sliceFrom_append ['<', '/'] _
      have hn : slice c.input (byteLength before + 2)
          (byteLength before + (2 + nameLength (d :: t))) = .ok (elementName (d :: t)) :=
        slice_name ['<', '/'] h
      rw [hs, scanTagEnd, show '<' :: '/' :: d :: t = ['<', '/'] ++ d :: t from rfl]
      simp only [bind, Except.bind]
      have hl : '>' ∉ ['<', '/'] := by decide
      rcases closeOffset_cases hl (d :: t) with ⟨hb, hf⟩ | ⟨a, b, close, hb, hf, he⟩
      · rw [hb, hf]
        rfl
      · rw [hb, hf]
        simp only [hn, Nat.add_assoc, he]
        rfl
    · rfl

/-- The `>` that closes a tag is found where the rest of the tag breaks off. -/
theorem findTagClose_cases (t : List Char) :
    breakTag (afterName t) = none ∧ findTagClose ('<' :: t) (1 + nameLength t) = .ok none ∨
      ∃ w b, breakTag (afterName t) = some (w ++ ['>'], b) ∧
        '<' :: t = ('<' :: elementName t ++ w) ++ '>' :: b ∧
        findTagClose ('<' :: t) (1 + nameLength t) =
          .ok (some (byteLength ('<' :: elementName t ++ w))) := by
  have hl : 1 + nameLength t = byteLength ('<' :: elementName t) := by
    rw [nameLength_eq]
    rfl
  have ht : sliceFrom ('<' :: t) (1 + nameLength t) = .ok (afterName t) := by
    have ha := sliceFrom_append ('<' :: elementName t) (afterName t)
    rwa [List.cons_append, elementName_append_afterName, ← hl] at ha
  have hw := tagCloseFrom_eq (1 + nameLength t) none (afterName t)
  rw [findTagClose, ht]
  cases hb : breakTag (afterName t) with
  | none =>
    rw [show breakTagFrom none [] (afterName t) = none from hb] at hw
    refine Or.inl ⟨rfl, ?_⟩
    simp only [bind, Except.bind, pure, Except.pure, Option.map_eq_none_iff.mp hw]
  | some r =>
    obtain ⟨a, b⟩ := r
    rw [show breakTagFrom none [] (afterName t) = some (a, b) from hb] at hw
    obtain ⟨close, hc, he⟩ := Option.map_eq_some_iff.mp hw
    obtain ⟨w, rfl, _⟩ := breakTag_closes hb
    have hcl : close = byteLength ('<' :: elementName t ++ w) := by
      have he : close + 1 = 1 + nameLength t + byteLength (w ++ ['>']) := he
      rw [hl, byteLength_append, ← Nat.add_assoc, ← byteLength_append] at he
      exact Nat.succ.inj he
    refine Or.inr ⟨w, b, rfl, ?_, ?_⟩
    · have hafter := breakTag_append hb
      rw [List.append_assoc, List.singleton_append] at hafter
      rw [List.append_assoc, hafter, List.cons_append, elementName_append_afterName]
    · simp only [bind, Except.bind, pure, Except.pure, hc, hcl]

theorem tagStartAt_eq (h : c.input = before ++ '<' :: t) :
    c.tagStartAt (byteLength before) ('<' :: t) =
      .ok ((scanTagStart t).map (Piece.bounds (byteLength before))) := by
  have hs : sliceFrom ('<' :: t) 1 = .ok t := sliceFrom_append ['<'] t
  have hn : slice c.input (byteLength before + 1) (byteLength before + (1 + nameLength t)) =
      .ok (elementName t) := slice_name ['<'] h
  rw [tagStartAt, hs, scanTagStart]
  simp only [bind, Except.bind]
  rcases findTagClose_cases t with ⟨hb, hf⟩ | ⟨w, b, hb, hp, hf⟩
  · rw [hb, hf]
    rfl
  · have hi : sliceTo ('<' :: t) (byteLength ('<' :: elementName t ++ w)) =
        .ok ('<' :: elementName t ++ w) := by
      rw [hp]
      exact sliceTo_append _ _
    have hself : selfClosing ('<' :: elementName t ++ (w ++ ['>'])) =
        ((trimEnd ('<' :: elementName t ++ w)).getLast? == some '/') := by
      rw [selfClosing, ← List.append_assoc, List.dropLast_concat]
    have hstop : byteLength ('<' :: elementName t ++ (w ++ ['>'])) =
        byteLength ('<' :: elementName t ++ w) + 1 := by
      rw [← List.append_assoc, byteLength_append _ ['>']]
      rfl
    rw [hb, hf]
    simp only [hn, hi, Option.map_some, Piece.bounds, Piece.of, hself, hstop]
    rfl

/-- Markup is found where `scanPiece` finds it, and ends where its text does. -/
theorem scanMarkup_eq (h : c.input = before ++ '<' :: t) :
    c.scanMarkup (byteLength before) =
      .ok ((scanPiece ('<' :: t)).map (Piece.bounds (byteLength before))) := by
  have hs := sliceFrom_input h
  have hb : (utf8 ('<' :: t))[1]? = (utf8 t)[0]? := by
    rw [utf8_cons_ascii (by decide)]
    rfl
  rw [scanMarkup, hs]
  simp only [bind, Except.bind, hb]
  cases t with
  | nil => rfl
  | cons d t =>
    obtain ⟨b, hf, ha, heq⟩ := bytes_first d t
    have hbang : b = 0x21 ↔ d = '!' := heq '!' (by decide)
    have hquestion : b = 0x3F ↔ d = '?' := heq '?' (by decide)
    have hslash : b = 0x2F ↔ d = '/' := heq '/' (by decide)
    simp only [hf, hbang, hquestion, hslash, ha]
    by_cases h₁ : d = '!'
    · subst h₁
      have ho : opensComment ('<' :: '!' :: t) = ['-', '-'].isPrefixOf t := rfl
      rw [ho, scanPiece]
      split
      · exact commentAt_eq h
      · rw [if_pos (Or.inl rfl)]
        exact declarationAt_eq (by decide)
    · have ho : opensComment ('<' :: d :: t) = false := by
        simp [opensComment, List.isPrefixOf, Ne.symm h₁]
      simp only [ho, Bool.false_eq_true, if_false, h₁, false_or]
      by_cases h₂ : d = '?'
      · subst h₂
        rw [if_pos rfl]
        exact declarationAt_eq (by decide)
      · rw [if_neg h₂]
        by_cases h₃ : d = '/'
        · subst h₃
          rw [if_pos rfl]
          exact tagEndAt_eq h
        · have hp : scanPiece ('<' :: d :: t) =
              if d.isAlpha then scanTagStart (d :: t) else none := by
            unfold scanPiece
            split <;> simp_all
          rw [if_neg h₃, hp]
          split
          · exact tagStartAt_eq h
          · rfl

end Scanner

/-! ## 2. The end of a text run -/

theorem findOffset_char_cases (c : Char) (s : List Char) :
    c ∉ s ∧ findOffset (atChar (· == c)) s = none ∨
      ∃ w t, c ∉ w ∧ s = w ++ c :: t ∧ findOffset (atChar (· == c)) s = some (byteLength w) := by
  have h := findOffset_atChar c s
  cases hb : breakAfter (· == c) s with
  | none =>
    rw [hb] at h
    exact Or.inl ⟨breakAfter_eq_none_iff.mp hb, Option.map_eq_none_iff.mp h⟩
  | some r =>
    obtain ⟨w, hr, hw, hs⟩ := shortest_endsWith_iff.mp (breakAfter_eq_some_iff.mp hb)
    rw [hb] at h
    obtain ⟨n, hn, he⟩ := Option.map_eq_some_iff.mp h
    have he : n + c.utf8Size = byteLength r.1 := he
    rw [hr, byteLength_append, byteLength_cons, byteLength_nil, Nat.add_zero] at he
    exact Or.inr ⟨w, r.2, hw, hs, by rw [hn, Nat.add_right_cancel he]⟩

/-- A text run goes on over everything that is no `<`. -/
theorem breakText_append {a : List Char} (ha : '<' ∉ a) (s : List Char) :
    breakText (a ++ s) = (a ++ (breakText s).1, (breakText s).2) := by
  induction a with
  | nil => rfl
  | cons c a ih =>
    rw [List.mem_cons, not_or] at ha
    have ho : opensPiece (c :: (a ++ s)) = false := by
      rw [Bool.eq_false_iff, ne_eq, opensPiece_iff]
      intro hm
      obtain ⟨t, ht⟩ := hm.cons
      exact ha.1 (List.cons.inj ht).1.symm
    have hb := ih ha.2
    rw [breakText] at hb ⊢
    rw [List.cons_append, breakSuffix_cons, ho, hb]
    rfl

/-- A text without `<` is one run. -/
theorem breakText_of_not_mem {s : List Char} (hs : '<' ∉ s) : breakText s = (s, []) := by
  have hb := breakText_append hs []
  simpa [breakText, breakSuffix_nil] using hb

namespace Scanner

variable {c : Scanner} {before rest : List Char}

theorem commentStart_eq (h : c.input = before ++ rest) :
    c.commentStart (byteLength before) =
      .ok (byteLength before + byteLength (breakSuffix opensComment rest).1) := by
  have hs := sliceFrom_input h
  rw [commentStart, hs]
  simp only [bind, Except.bind]
  rcases findOffset_cases opensComment rest with ⟨hf, he⟩ | hf
  · rw [hf, he, h, byteLength_append]
    rfl
  · rw [hf]
    rfl

/-- At a `<`, a search that goes on behind it unless it opens markup stops where `breakText`
splits. -/
theorem scanMarkup_orElse {search : Nat → Except BadSlice Nat} {t : List Char}
    (h : c.input = before ++ '<' :: t)
    (hs : search (byteLength (before ++ ['<'])) =
      .ok (byteLength (before ++ ['<']) + byteLength (breakText t).1)) :
    (do
      match ← c.scanMarkup (byteLength before) with
      | some _ => pure (byteLength before)
      | none => search (byteLength before + 1)) =
      .ok (byteLength before + byteLength (breakText ('<' :: t)).1) := by
  rw [scanMarkup_eq h, breakText, breakSuffix_cons, opensPiece]
  cases scanPiece ('<' :: t) with
  | some u => rfl
  | none =>
    rw [byteLength_append, Nat.add_assoc] at hs
    exact hs

/-- Goes on at the first `<` from an offset on. -/
def atOpening (c : Scanner) (start : Nat) (next : Nat → Except BadSlice Nat) :
    Except BadSlice Nat := do
  let rest ← sliceFrom c.input start
  match findOffset (atChar (· == '<')) rest with
  | none => pure (byteLength c.input)
  | some offset => next (start + offset)

/-- A search stops where `breakText` splits if it does so from each `<` on. -/
theorem atOpening_eq {next : Nat → Except BadSlice Nat} (h : c.input = before ++ rest)
    (hnext : ∀ w t, rest = w ++ '<' :: t → next (byteLength (before ++ w)) =
      .ok (byteLength (before ++ w) + byteLength (breakText ('<' :: t)).1)) :
    c.atOpening (byteLength before) next =
      .ok (byteLength before + byteLength (breakText rest).1) := by
  rw [atOpening, sliceFrom_input h]
  simp only [bind, Except.bind]
  rcases findOffset_char_cases '<' rest with ⟨hm, hf⟩ | ⟨w, t, hw, rfl, hf⟩
  · rw [hf, breakText_of_not_mem hm, h, byteLength_append]
    rfl
  · have hn := hnext w t rfl
    rw [byteLength_append] at hn
    rw [hf, breakText_append hw, byteLength_append, ← Nat.add_assoc]
    exact hn

theorem nextMarkupStart_eq_atOpening (c : Scanner) (start : Nat) :
    c.nextMarkupStart start = c.atOpening start (fun candidate =>
      if c.lastClose.all (· < candidate) then c.commentStart candidate
      else do
        match ← c.scanMarkup candidate with
        | some _ => pure candidate
        | none => c.nextMarkupStart (candidate + 1)) := by
  conv => lhs; rw [nextMarkupStart]
  unfold atOpening
  split
  · next hs =>
    rw [hs]
    rfl
  · next rest hs =>
    rw [hs]
    simp only [bind, Except.bind]
    split
    · next hf => simp only [hf, pure, Except.pure]
    · next offset hf => simp only [hf]

/-- The search for the end of a text run stops where `breakText` splits. -/
theorem nextMarkupStart_eq (h : c.input = before ++ rest)
    (hl : c.lastClose = lastOffset '>' c.input) :
    c.nextMarkupStart (byteLength before) =
      .ok (byteLength before + byteLength (breakText rest).1) := by
  induction hn : rest.length using Nat.strongRecOn generalizing before rest with
  | _ n ih =>
    rw [nextMarkupStart_eq_atOpening]
    refine atOpening_eq h fun w t hr => ?_
    have hi : c.input = (before ++ w) ++ '<' :: t := by rw [h, hr, List.append_assoc]
    have hlast : c.lastClose.all (· < byteLength (before ++ w)) = true ↔ '>' ∉ '<' :: t := by
      rw [hl, hi]
      exact lastOffset_all_iff
    simp only [hlast]
    split
    · next hm =>
      rw [← breakSuffix_opensComment hm]
      exact commentStart_eq hi
    · have hi' : c.input = (before ++ w ++ ['<']) ++ t := by
        rw [hi, List.append_assoc _ ['<'], List.singleton_append]
      have ht : t.length < n := by
        rw [← hn, hr]
        simp
        omega
      exact scanMarkup_orElse hi (ih t.length ht hi' rfl)

/-! ## 3. The end of raw text -/

theorem rawTextStop_eq {element : List Char} (h : c.input = before ++ rest)
    (ho : c.offset = byteLength before) (he : element ∈ rawTextElements) :
    c.rawTextStop element = .ok (byteLength before +
      byteLength (breakSuffix (startsIgnoringCase ('<' :: '/' :: element)) rest).1) := by
  have hs := sliceFrom_input h
  have ha : ∀ d ∈ '<' :: '/' :: element, d.toNat < 128 := by
    have hall : ∀ e ∈ rawTextElements, ('<' :: '/' :: e).all (·.toNat < 128) = true := by decide
    exact fun d hd => of_decide_eq_true (List.all_eq_true.mp (hall element he) d hd)
  rw [rawTextStop, ho, hs]
  simp only [bind, Except.bind, findWindow_eq ha]
  rcases findOffset_cases (startsIgnoringCase ('<' :: '/' :: element)) rest with ⟨hf, he⟩ | hf
  · rw [hf, he, h, byteLength_append]
    rfl
  · rw [hf]
    rfl

/-! ## 4. One step -/

/-- The scanner stands where the cursor stands. -/
structure Tracks (c : Scanner) (d : Cursor) : Prop where
  parts : ∃ before, c.input = before ++ d.rest ∧ c.offset = byteLength before
  position : c.position = d.position
  pending : c.pending = d.pending
  lastClose : c.lastClose = lastOffset '>' c.input
  counts : d.Counts
  pendingRaw : d.PendingRaw

theorem bounds_opensRawText (start : Nat) (u : Piece) :
    (u.bounds start).opensRawText = u.opensRawText := by
  obtain ⟨kind, name, raw, rest⟩ := u
  unfold Bounds.opensRawText Piece.opensRawText Piece.bounds
  cases kind with
  | tagStart =>
    cases name with
    | none => simp
    | some name => cases selfClosing raw <;> simp
  | start | tagEnd | text | comment | cdata | doctype | finish => rfl

/-- An event that ends where a piece does is cut out, and the scanner goes on behind it. -/
theorem emit_tracks {d : Cursor} {u : Piece} (h : Tracks c d) (hu : d.next = some (d.emit u)) :
    ∃ c', (c.withPending u.opensRawText).emit u.kind (c.offset + byteLength u.raw) u.name =
        .ok (some ((d.emit u).1, c')) ∧
      Tracks c' (d.emit u).2 := by
  obtain ⟨before, hi, ho⟩ := h.parts
  have hr : u.raw ++ u.rest = d.rest := (Cursor.next_append hu).1
  rw [← hr] at hi
  have hs : slice c.input c.offset (c.offset + byteLength u.raw) = .ok u.raw := by
    rw [hi, ho]
    exact slice_append before u.raw u.rest
  refine ⟨⟨c.input, c.offset + byteLength u.raw, c.position.advance u.raw, u.opensRawText,
    c.lastClose⟩, ?_, ?_⟩
  · rw [emit, withPending, hs, h.position]
    rfl
  · refine ⟨⟨before ++ u.raw, ?_, ?_⟩, ?_, rfl, h.lastClose, ?_, ?_⟩
    · rw [hi, List.append_assoc]
      rfl
    · rw [byteLength_append, ho]
    · rw [h.position]
      rfl
    · exact Cursor.next_counts hu h.counts
    · exact Cursor.next_pending_mem hu

theorem markupAt_eq (h : c.input = before ++ rest) :
    c.markupAt (byteLength before) rest =
      .ok ((scanPiece rest).map (Piece.bounds (byteLength before))) := by
  unfold markupAt
  split
  · next hh =>
    obtain ⟨t, rfl⟩ := List.head?_eq_some_iff.mp hh
    exact scanMarkup_eq h
  · next hh =>
    have hn : scanPiece rest = none := by
      rw [scanPiece_eq_none_iff]
      intro hm
      obtain ⟨t, rfl⟩ := hm.cons
      exact hh rfl
    rw [hn]
    rfl

/-- Where no raw text is due, a step of the scanner is a step of the cursor. -/
theorem nextPiece_tracks {d : Cursor} (h : Tracks c d) (hf : d.rawText = none)
    (hne : d.rest ≠ []) :
    ∃ e c' d', d.next = some (e, d') ∧ (c.withPending none).nextPiece = .ok (some (e, c')) ∧
      Tracks c' d' := by
  obtain ⟨before, hi, ho⟩ := h.parts
  obtain ⟨first, others, hr⟩ := List.exists_cons_of_ne_nil hne
  have hs : sliceFrom (c.withPending none).input (c.withPending none).offset = .ok d.rest := by
    rw [show (c.withPending none).offset = byteLength before from ho]
    exact sliceFrom_input hi
  have hm : (c.withPending none).markupAt (c.withPending none).offset d.rest =
      .ok ((scanPiece d.rest).map (Piece.bounds (byteLength before))) := by
    rw [show (c.withPending none).offset = byteLength before from ho]
    exact markupAt_eq hi
  rw [nextPiece, hs]
  simp only [bind, Except.bind, hm]
  cases hp : scanPiece d.rest with
  | some u =>
    have hu : d.next = some (d.emit u) := by
      rw [Cursor.next, Cursor.piece?, hf]
      rw [hr] at hp ⊢
      simp only [hp, Option.map_some]
    obtain ⟨c', he, ht⟩ := emit_tracks h hu
    rw [ho] at he
    refine ⟨(d.emit u).1, c', (d.emit u).2, hu, ?_, ht⟩
    simp only [Option.map_some, bounds_opensRawText]
    exact he
  | none =>
    have hu : d.next = some (d.emit (.of .text none [first] (breakText others))) := by
      rw [Cursor.next, Cursor.piece?, hf, ← Cursor.textRun_eq h.counts hr]
      rw [hr] at hp ⊢
      simp only [hp, Option.map_some]
    obtain ⟨c', he, ht⟩ := emit_tracks h hu
    have hi' : (c.withPending none).input = (before ++ [first]) ++ others := by
      rw [show (c.withPending none).input = c.input from rfl, hi, hr]
      simp
    have hfirst : (c.withPending none).offset + (d.rest.head?.map Char.utf8Size).getD 1 =
        byteLength (before ++ [first]) := by
      rw [show (c.withPending none).offset = byteLength before from ho, hr, byteLength_append]
      rfl
    have hstop : byteLength (before ++ [first]) + byteLength (breakText others).1 =
        c.offset + byteLength ([first] ++ (breakText others).1) := by
      rw [ho, byteLength_append, byteLength_append, Nat.add_assoc]
    refine ⟨_, c', _, hu, ?_, ht⟩
    simp only [Option.map_none, hfirst, nextMarkupStart_eq hi' h.lastClose, hstop]
    exact he

/-- A step of the scanner is a step of the cursor. -/
theorem next_tracks {d : Cursor} (h : Tracks c d) :
    d.next = none ∧ c.next = .ok none ∨
      ∃ e c' d', d.next = some (e, d') ∧ c.next = .ok (some (e, c')) ∧ Tracks c' d' := by
  obtain ⟨before, hi, ho⟩ := h.parts
  by_cases hr : d.rest = []
  · refine Or.inl ⟨Cursor.next_eq_none_iff.mpr hr, ?_⟩
    rw [hr, List.append_nil] at hi
    rw [next, hi, ho, if_pos (Nat.le_refl _)]
    rfl
  · refine Or.inr ?_
    have hlt : ¬ byteLength c.input ≤ c.offset := by
      have hpos := byteLength_pos hr
      rw [hi, ho, byteLength_append]
      omega
    rw [next, if_neg hlt]
    cases hp : c.pending with
    | none =>
      refine nextPiece_tracks h ?_ hr
      rw [Cursor.rawText, ← h.pending, hp]
    | some element =>
      have hd : d.pending = some element := h.pending.symm.trans hp
      have hs := rawTextStop_eq hi ho (h.pendingRaw element hd)
      simp only [hs, bind, Except.bind]
      split
      · next hlt =>
        have hne : (breakSuffix (startsIgnoringCase ('<' :: '/' :: element)) d.rest).1 ≠ [] := by
          intro hnil
          rw [hnil, ho] at hlt
          exact Nat.lt_irrefl _ hlt
        have hu := Cursor.next_of_rawText hd (breakSuffix_shortest _ d.rest) hne
        obtain ⟨c', he, ht⟩ := emit_tracks h hu
        rw [ho] at he
        exact ⟨_, c', _, hu, he, ht⟩
      · next hge =>
        -- the element is closed at once: what is due is forgotten
        refine nextPiece_tracks h ?_ hr
        rw [Cursor.rawText, hd]
        refine if_pos ?_
        rw [ho] at hge
        exact byteLength_eq_zero_iff.mp (by omega)

/-! ## 5. The run -/

theorem ofText_tracks (s : List Char) : Tracks (ofText s) (Cursor.ofText s) :=
  ⟨⟨[], rfl, rfl⟩, rfl, rfl, rfl, Cursor.ofText_counts s, Cursor.ofText_pending_mem s⟩

/-- The scanner yields the events of a trace to the end of the text. -/
theorem runs_of_trace {d d' : Cursor} {es : List Event} (ht : Cursor.Trace d es d')
    (hd : d'.rest = []) (h : Tracks c d) : Runs c es d'.position := by
  induction ht generalizing c with
  | @nil d =>
    rcases next_tracks h with ⟨_, hs⟩ | ⟨e, _, d₁, hn, _⟩
    · rw [← h.position]
      exact .stop hs
    · cases (Cursor.next_eq_none_iff.mpr hd).symm.trans hn
  | cons hn _ ih =>
    rcases next_tracks h with ⟨hs, _⟩ | ⟨e, c', d₁, hn', hs, ht⟩
    · cases hs.symm.trans hn
    · cases hn.symm.trans hn'
      exact .step hs (ih hd ht)

/-- A text has one run. -/
theorem Runs.unique {es es' : List Event} {p p' : Position} (h : Runs c es p)
    (h' : Runs c es' p') : es = es' ∧ p = p' := by
  induction h generalizing es' with
  | stop hn =>
    cases h' with
    | stop _ => exact ⟨rfl, rfl⟩
    | step hn' _ => cases hn.symm.trans hn'
  | step hn _ ih =>
    cases h' with
    | stop hn' => cases hn.symm.trans hn'
    | step hn' hr =>
      cases hn.symm.trans hn'
      obtain ⟨rfl, rfl⟩ := ih hr
      exact ⟨rfl, rfl⟩

end Scanner

theorem length_le_written {es : List Event} (h : ∀ e ∈ es, e.raw ≠ []) :
    es.length ≤ (written es).length := by
  induction es with
  | nil => exact Nat.le_refl 0
  | cons e es ih =>
    have hpos := List.length_pos_iff.mpr (h e (by simp))
    have hle := ih fun f hf => h f (List.mem_cons_of_mem e hf)
    rw [written_cons, List.length_append, List.length_cons]
    omega

/-- The scanner comes to the end of every text without a bad slice. Its one run yields the events of
the tokenizer. They lose nothing and are not empty, so they are no more than the characters. -/
theorem scanner_runs (s : List Char) :
    (∀ es p, Scanner.Runs (Scanner.ofText s) es p ↔ tokenize s = (es, p)) ∧
      written (tokenize s).1 = s ∧ (∀ e ∈ (tokenize s).1, e.raw ≠ []) ∧
      (tokenize s).1.length ≤ s.length := by
  obtain ⟨d, ht, hd, hp⟩ := Cursor.trace_run (Cursor.ofText s)
  have hr : Scanner.Runs (Scanner.ofText s) (tokenize s).1 (tokenize s).2 := by
    rw [show (tokenize s).2 = d.position from hp]
    exact Scanner.runs_of_trace ht hd (Scanner.ofText_tracks s)
  have hn : ∀ e ∈ (tokenize s).1, e.raw ≠ [] := ht.raw_ne_nil
  refine ⟨fun es p => ⟨fun h => ?_, ?_⟩, written_tokenize s, hn, ?_⟩
  · obtain ⟨rfl, rfl⟩ := hr.unique h
    rfl
  · intro h
    rwa [h] at hr
  · have hl := length_le_written hn
    rwa [written_tokenize] at hl

end MarkupLint.Markup
