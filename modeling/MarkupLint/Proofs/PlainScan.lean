import MarkupLint.Proofs.Scanner

/-!
# The scan that tries every place

The search for the end of a text run knows the offset of the last `>` of the text: behind it, no `<`
is tried any more, and the search jumps to the next comment. The plain scan knows nothing of that
and tries each `<`. It finds the same places, and yields the same events.

Results:
1. `opensAt_iff`: markup opens at an offset exactly if it opens at the front of the text from there.
2. `firstMarkup_breakText`: the first place where markup opens.
3. `plainMarkupStart_eq`: the plain search stops where `breakText` splits.
4. `plainNext_knowing`: one step of the plain scanner is one step of the scanner.
5. `text_scan_agrees`: the two searches and the two runs.
-/

namespace MarkupLint.Markup

open MarkupLint.Text

namespace Scanner

/-! ## Definitions -/

/-- A `<` stands at the offset, and it opens markup. The scan for markup takes it that a `<` stands
where it begins, and is asked nowhere else. -/
def OpensAt (c : Scanner) (n : Nat) : Prop :=
  (∃ rest, sliceFrom c.input n = .ok ('<' :: rest)) ∧ ∃ m, c.scanMarkup n = .ok (some m)

/-- `stop` is the least offset from `start` on at which markup opens, or the length of the text if
there is none. -/
def FirstMarkup (c : Scanner) (start stop : Nat) : Prop :=
  (start ≤ stop ∧ c.OpensAt stop ∧ ∀ n, start ≤ n → c.OpensAt n → stop ≤ n) ∨
    (stop = byteLength c.input ∧ ∀ n, start ≤ n → ¬ c.OpensAt n)

/-- The offset of the first `<` from an offset on that opens markup, or the end, where every `<` is
tried. -/
def plainMarkupStart (c : Scanner) (search : Nat) : Except BadSlice Nat :=
  match _hs : sliceFrom c.input search with
  | .error e => .error e
  | .ok rest =>
    match _hf : findOffset (atChar (· == '<')) rest with
    | none => .ok (byteLength c.input)
    | some offset => do
      match ← c.scanMarkup (search + offset) with
      | some _ => pure (search + offset)
      | none => c.plainMarkupStart (search + offset + 1)
termination_by byteLength c.input - search
decreasing_by
  have := sliceFrom_length _hs
  have := findOffset_lt _hf
  omega

/-- The next event where no raw text is due, with the given search for the end of a text run. -/
def nextPieceWith (search : Scanner → Nat → Except BadSlice Nat) (c : Scanner) :
    Except BadSlice (Option (Event × Scanner)) := do
  let rest ← sliceFrom c.input c.offset
  match ← c.markupAt c.offset rest with
  | some m => (c.withPending m.opensRawText).emit m.kind m.stop m.tagName
  | none =>
    let rest ← sliceFrom c.input c.offset
    let first := (rest.head?.map Char.utf8Size).getD 1
    let stop ← search c (c.offset + first)
    c.emit .text stop none

/-- The next event, with the given search for the end of a text run. -/
def nextWith (search : Scanner → Nat → Except BadSlice Nat) (c : Scanner) :
    Except BadSlice (Option (Event × Scanner)) :=
  if byteLength c.input ≤ c.offset then pure none
  else
    let taken := c.withPending none
    match c.pending with
    | none => taken.nextPieceWith search
    | some element => do
      let stop ← c.rawTextStop element
      if c.offset < stop then taken.emit .cdata stop none else taken.nextPieceWith search

/-- The next event of the plain scanner. -/
def plainNext (c : Scanner) : Except BadSlice (Option (Event × Scanner)) :=
  c.nextWith plainMarkupStart

/-- `PlainRuns c es p`: from here on the plain scanner yields the events `es` and ends at `p`, with
no bad slice on the way. -/
inductive PlainRuns : Scanner → List Event → Position → Prop
  | stop {c : Scanner} : c.plainNext = .ok none → PlainRuns c [] c.position
  | step {c c' : Scanner} {e : Event} {es : List Event} {p : Position} :
      c.plainNext = .ok (some (e, c')) → PlainRuns c' es p → PlainRuns c (e :: es) p

/-- The same place, with something else taken for the offset of the last `>`. -/
def knowing (c : Scanner) (lastClose : Option Nat) : Scanner := { c with lastClose := lastClose }

end Scanner

/-! ## 1. Where markup opens -/

theorem sliceFrom_eq_ok_iff {s rest : List Char} {start : Nat} :
    sliceFrom s start = .ok rest ↔ ∃ a, s = a ++ rest ∧ byteLength a = start := by
  constructor
  · intro h
    obtain ⟨a, b, hs, ha, hl⟩ := slice_eq_ok_iff.mp h
    have hb : b = [] := by
      rw [← byteLength_eq_zero_iff]
      rw [hs, byteLength_append _ b] at hl
      omega
    rw [hb, List.append_nil] at hs
    exact ⟨a, hs, ha⟩
  · rintro ⟨a, rfl, rfl⟩
    exact sliceFrom_append a rest

/-- Of two prefixes of a text, the one with more bytes goes on behind the other. -/
theorem exists_append_of_byteLength_le {a b a' b' : List Char} (h : a ++ b = a' ++ b')
    (hle : byteLength a ≤ byteLength a') : ∃ w, a' = a ++ w ∧ b = w ++ b' := by
  rcases List.append_eq_append_iff.mp h with ⟨w, ha, hb⟩ | ⟨w, ha, hb⟩
  · exact ⟨w, ha, hb⟩
  · have hw : w = [] := by
      rw [← byteLength_eq_zero_iff]
      rw [ha, byteLength_append] at hle
      omega
    subst hw
    exact ⟨[], by simpa using ha.symm, by simpa using hb.symm⟩

namespace Scanner

variable {c : Scanner} {before rest : List Char}

theorem opensAt_iff {n : Nat} :
    c.OpensAt n ↔ ∃ a t, c.input = a ++ t ∧ byteLength a = n ∧ IsMarkup t := by
  have hm : ∀ {a t : List Char}, c.input = a ++ '<' :: t →
      ((∃ m, c.scanMarkup (byteLength a) = .ok (some m)) ↔ IsMarkup ('<' :: t)) := by
    intro a t hi
    rw [← opensPiece_iff, opensPiece, scanMarkup_eq hi]
    cases scanPiece ('<' :: t) <;> simp
  constructor
  · rintro ⟨⟨t, hs⟩, ho⟩
    obtain ⟨a, hi, rfl⟩ := sliceFrom_eq_ok_iff.mp hs
    exact ⟨a, '<' :: t, hi, rfl, (hm hi).mp ho⟩
  · rintro ⟨a, t, hi, rfl, ht⟩
    obtain ⟨t, rfl⟩ := ht.cons
    exact ⟨⟨t, sliceFrom_eq_ok_iff.mpr ⟨a, hi, rfl⟩⟩, (hm hi).mpr ht⟩

/-! ## 2. The first place where markup opens -/

/-- The first place where markup opens is the one before which `breakText` splits. -/
theorem firstMarkup_breakText (h : c.input = before ++ rest) :
    c.FirstMarkup (byteLength before) (byteLength before + byteLength (breakText rest).1) := by
  have hb := breakText_shortest rest
  -- an offset where markup opens stands behind a prefix of the rest that passes the test
  have hleast : ∀ n, byteLength before ≤ n → c.OpensAt n →
      ∃ w t, w ++ t = rest ∧ byteLength before + byteLength w = n ∧ IsMarkup t := by
    intro n hle ho
    obtain ⟨a, t, hi, rfl, ht⟩ := opensAt_iff.mp ho
    obtain ⟨w, rfl, hr⟩ := exists_append_of_byteLength_le (h.symm.trans hi) hle
    exact ⟨w, t, hr.symm, (byteLength_append before w).symm, ht⟩
  rcases hb.pass with hnil | hm
  · refine Or.inr ⟨?_, fun n hle ho => ?_⟩
    · have hp := hb.parts
      rw [hnil, List.append_nil] at hp
      rw [hp, h, byteLength_append]
    · obtain ⟨w, t, hr, -, ht⟩ := hleast n hle ho
      have hl := hb.least w t hr (Or.inr ht)
      have hp := congrArg List.length (hb.parts.trans hr.symm)
      obtain ⟨u, rfl⟩ := ht.cons
      rw [hnil] at hp
      simp at hp
      omega
  · refine Or.inl ⟨Nat.le_add_right _ _, ?_, fun n hle ho => ?_⟩
    · refine opensAt_iff.mpr ⟨before ++ (breakText rest).1, (breakText rest).2, ?_, ?_, hm⟩
      · rw [List.append_assoc, hb.parts, h]
      · exact byteLength_append _ _
    · obtain ⟨w, t, hr, rfl, ht⟩ := hleast n hle ho
      have hl := hb.least w t hr (Or.inr ht)
      have hpre : (breakText rest).1 <+: w := by
        refine List.prefix_of_prefix_length_le ⟨_, hb.parts⟩ ⟨t, hr⟩ hl
      obtain ⟨u, rfl⟩ := hpre
      rw [byteLength_append]
      omega

/-! ## 3. The plain search -/

theorem plainMarkupStart_eq_atOpening (c : Scanner) (start : Nat) :
    c.plainMarkupStart start = c.atOpening start (fun candidate => do
      match ← c.scanMarkup candidate with
      | some _ => pure candidate
      | none => c.plainMarkupStart (candidate + 1)) := by
  conv => lhs; rw [plainMarkupStart]
  unfold atOpening
  split
  · next hs =>
    rw [hs]
    rfl
  · next rest hs =>
    rw [hs]
    simp only [bind, Except.bind]
    split
    · next hf => simp only [hf, pure, Except.pure]
    · next offset hf => simp only [hf]

/-- The plain search stops where `breakText` splits. -/
theorem plainMarkupStart_eq (h : c.input = before ++ rest) :
    c.plainMarkupStart (byteLength before) =
      .ok (byteLength before + byteLength (breakText rest).1) := by
  induction hn : rest.length using Nat.strongRecOn generalizing before rest with
  | _ n ih =>
    rw [plainMarkupStart_eq_atOpening]
    refine atOpening_eq h fun w t hr => ?_
    have hi : c.input = (before ++ w) ++ '<' :: t := by rw [h, hr, List.append_assoc]
    have hi' : c.input = (before ++ w ++ ['<']) ++ t := by
      rw [hi, List.append_assoc _ ['<'], List.singleton_append]
    have ht : t.length < n := by
      rw [← hn, hr]
      simp
      omega
    exact scanMarkup_orElse hi (ih t.length ht hi' rfl)

/-! ## 4. One step -/

theorem next_eq_nextWith (c : Scanner) : c.next = c.nextWith nextMarkupStart := rfl

@[simp]
theorem knowing_input (c : Scanner) (l : Option Nat) : (c.knowing l).input = c.input := rfl

@[simp]
theorem knowing_offset (c : Scanner) (l : Option Nat) : (c.knowing l).offset = c.offset := rfl

@[simp]
theorem knowing_pending (c : Scanner) (l : Option Nat) : (c.knowing l).pending = c.pending := rfl

@[simp]
theorem knowing_withPending (c : Scanner) (l : Option Nat) (pending : Option (List Char)) :
    (c.knowing l).withPending pending = (c.withPending pending).knowing l := rfl

@[simp]
theorem knowing_markupAt (c : Scanner) (l : Option Nat) (start : Nat) (rest : List Char) :
    (c.knowing l).markupAt start rest = c.markupAt start rest := rfl

@[simp]
theorem knowing_rawTextStop (c : Scanner) (l : Option Nat) (element : List Char) :
    (c.knowing l).rawTextStop element = c.rawTextStop element := rfl

/-- An event is cut out without a look at the last `>`. -/
@[simp]
theorem knowing_emit (c : Scanner) (l : Option Nat) (kind : EventKind) (stop : Nat)
    (tagName : Option (List Char)) :
    (c.knowing l).emit kind stop tagName =
      (c.emit kind stop tagName).map (Option.map fun r => (r.1, r.2.knowing l)) := by
  unfold emit
  simp only [knowing_input, knowing_offset]
  cases slice c.input c.offset stop with
  | error e => rfl
  | ok raw => rfl

/-- Both searches stop at the same place, so the same text run is cut out. -/
theorem nextPieceWith_knowing {first : Char} {others : List Char}
    (hi : c.input = before ++ first :: others) (ho : c.offset = byteLength before)
    (hc : c.lastClose = lastOffset '>' c.input) (l : Option Nat) :
    (c.knowing l).nextPieceWith plainMarkupStart =
      (c.nextPieceWith nextMarkupStart).map (Option.map fun r => (r.1, r.2.knowing l)) := by
  have hs : sliceFrom c.input c.offset = .ok (first :: others) := by
    rw [ho]
    exact sliceFrom_input hi
  have hi' : c.input = (before ++ [first]) ++ others := by
    rw [hi]
    simp
  have hfirst : c.offset + ((first :: others).head?.map Char.utf8Size).getD 1 =
      byteLength (before ++ [first]) := by
    rw [ho, byteLength_append]
    rfl
  have hsearch : (c.knowing l).plainMarkupStart (byteLength (before ++ [first])) =
      c.nextMarkupStart (byteLength (before ++ [first])) :=
    (plainMarkupStart_eq (c := c.knowing l) hi').trans (nextMarkupStart_eq hi' hc).symm
  rw [nextPieceWith, nextPieceWith]
  simp only [knowing_input, knowing_offset, hs, bind, Except.bind, knowing_markupAt,
    knowing_withPending, knowing_emit, hfirst, hsearch]
  cases c.markupAt c.offset (first :: others) with
  | error e => rfl
  | ok m =>
    cases m with
    | some m => rfl
    | none =>
      cases c.nextMarkupStart (byteLength (before ++ [first])) with
      | error e => rfl
      | ok stop => rfl

/-- A step of the plain scanner is a step of the scanner, whatever it takes for the offset of the
last `>`. -/
theorem plainNext_knowing {d : Cursor} (h : Tracks c d) (l : Option Nat) :
    (c.knowing l).plainNext = c.next.map (Option.map fun r => (r.1, r.2.knowing l)) := by
  obtain ⟨before, hi, ho⟩ := h.parts
  rw [plainNext, next_eq_nextWith, nextWith, nextWith]
  simp only [knowing_input, knowing_offset, knowing_pending, knowing_withPending,
    knowing_rawTextStop, knowing_emit]
  by_cases hend : byteLength c.input ≤ c.offset
  · rw [if_pos hend, if_pos hend]
    rfl
  · have hne : d.rest ≠ [] := by
      intro hnil
      rw [hi, ho, hnil, List.append_nil] at hend
      exact hend (Nat.le_refl _)
    obtain ⟨first, others, hr⟩ := List.exists_cons_of_ne_nil hne
    rw [hr] at hi
    have hpiece := nextPieceWith_knowing (c := c.withPending none) hi ho h.lastClose l
    rw [if_neg hend, if_neg hend, hpiece]
    cases c.pending with
    | none => rfl
    | some element =>
      simp only [bind, Except.bind]
      cases c.rawTextStop element with
      | error e => rfl
      | ok stop => exact (apply_ite _ (c.offset < stop) _ _).symm

/-! ## 5. The runs -/

theorem PlainRuns.unique {es es' : List Event} {p p' : Position} (h : PlainRuns c es p)
    (h' : PlainRuns c es' p') : es = es' ∧ p = p' := by
  induction h generalizing es' with
  | stop hn =>
    cases h' with
    | stop _ => exact ⟨rfl, rfl⟩
    | step hn' _ => cases hn.symm.trans hn'
  | step hn _ ih =>
    cases h' with
    | stop hn' => cases hn.symm.trans hn'
    | step hn' hr =>
      cases hn.symm.trans hn'
      obtain ⟨rfl, rfl⟩ := ih hr
      exact ⟨rfl, rfl⟩

/-- The plain scanner yields what the scanner yields. -/
theorem Runs.plain {d : Cursor} {es : List Event} {p : Position} (h : Runs c es p)
    (ht : Tracks c d) (l : Option Nat) : PlainRuns (c.knowing l) es p := by
  induction h generalizing d with
  | @stop c hn =>
    have hp := plainNext_knowing ht l
    rw [hn] at hp
    exact .stop hp
  | @step c c' e es p hn _ ih =>
    have hp := plainNext_knowing ht l
    rw [hn] at hp
    rcases next_tracks ht with ⟨-, hs⟩ | ⟨_, _, _, -, hs, ht'⟩
    · cases hs.symm.trans hn
    · cases hs.symm.trans hn
      exact .step hp (ih ht')

end Scanner

open Scanner in
/-- The search for the end of a text run stops at the first place where markup opens, although it
tries no tag behind the last `>`. A scanner that tries every place, and does not look at the offset
of the last `>`, has the same run. -/
theorem text_scan_agrees (s : List Char) :
    (∀ c : Scanner, c.input = s → c.lastClose = lastOffset '>' s →
      ∀ before rest, before ++ rest = s →
        ∃ stop, c.nextMarkupStart (byteLength before) = .ok stop ∧
          c.plainMarkupStart (byteLength before) = .ok stop ∧
          c.FirstMarkup (byteLength before) stop) ∧
      (∀ l es p, PlainRuns ((ofText s).knowing l) es p ↔ Runs (ofText s) es p) ∧
      ∃ es p, Runs (ofText s) es p := by
  obtain ⟨d, ht, hd, -⟩ := Cursor.trace_run (Cursor.ofText s)
  have hr : Runs (ofText s) (tokenize s).1 d.position := runs_of_trace ht hd (ofText_tracks s)
  refine ⟨?_, fun l es p => ⟨fun h => ?_, fun h => h.plain (ofText_tracks s) l⟩, _, _, hr⟩
  · rintro c hc hl before rest rfl
    rw [← hc] at hl
    exact ⟨_, nextMarkupStart_eq hc hl, plainMarkupStart_eq hc, firstMarkup_breakText hc⟩
  · obtain ⟨rfl, rfl⟩ := h.unique (hr.plain (ofText_tracks s) l)
    exact hr

open Scanner in
/-- Behind the last `>` the search passes over a tag that is not closed and stops at a comment. -/
theorem text_scan_agrees_open_tag :
    (Scanner.ofText "a > b <i <!-- d".toList).nextMarkupStart 6 = .ok 9 ∧
      (Scanner.ofText "a > b <i <!-- d".toList).plainMarkupStart 6 = .ok 9 ∧
      (Scanner.ofText "a > b <i <!-- d".toList).FirstMarkup 6 9 := by
  have hb : byteLength "a > b ".toList = 6 := by decide
  have hstop : 6 + byteLength (breakText "<i <!-- d".toList).1 = 9 := by decide +kernel
  obtain ⟨stop, hn, hp, hf⟩ := (text_scan_agrees "a > b <i <!-- d".toList).1
    (Scanner.ofText "a > b <i <!-- d".toList) rfl rfl "a > b ".toList "<i <!-- d".toList rfl
  have h9 : (Scanner.ofText "a > b <i <!-- d".toList).nextMarkupStart (byteLength "a > b ".toList) =
      .ok (byteLength "a > b ".toList + byteLength (breakText "<i <!-- d".toList).1) :=
    nextMarkupStart_eq rfl rfl
  rw [hb] at hn hp hf h9
  rw [hstop] at h9
  obtain rfl : stop = 9 := Except.ok.inj (hn.symm.trans h9)
  exact ⟨hn, hp, hf⟩

end MarkupLint.Markup
