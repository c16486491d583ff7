import MarkupLint.Text.Split

/-!
# Shortest splits

The first place at which something is so, said without a walk: `Shortest P s a b` splits the text
`s` into two parts that pass the test `P`, such that no split with a shorter first part passes.

Results:
1. `Shortest.unique`: a text has at most one shortest split.
2. `breakSuffix_shortest`, `breakAfter_eq_some_iff`, `breakAfter_eq_none_iff`, `takeWhile_shortest`:
   the splits of the library are shortest splits.
3. `Shortest.replace`, `Shortest.truncate`: what follows a split may be replaced, if the test looks
   at the first part alone, or be cut off, if the test asks what the second part starts with.
-/

namespace MarkupLint.Text

/-! ## Definitions -/

/-- `Shortest P s a b`: `s` falls into `a` and `b`, these pass `P`, and no split of `s` with a
shorter first part does. -/
structure Shortest (P : List Char → List Char → Prop) (s a b : List Char) : Prop where
  parts : a ++ b = s
  pass : P a b
  least : ∀ a' b', a' ++ b' = s → P a' b' → a.length ≤ a'.length

def Until (T : List Char → Prop) (_ b : List Char) : Prop := b = [] ∨ T b

/-- The first part ends with a character. -/
def EndsWith (c : Char) (a _ : List Char) : Prop := ∃ t, a = t ++ [c]

/-! ## 1. Uniqueness -/

theorem Shortest.unique {P : List Char → List Char → Prop} {s a b a' b' : List Char}
    (h : Shortest P s a b) (h' : Shortest P s a' b') : a = a' ∧ b = b' := by
  have hl : a.length = a'.length :=
    Nat.le_antisymm (h.least a' b' h'.parts h'.pass) (h'.least a b h.parts h.pass)
  exact List.append_inj (h.parts.trans h'.parts.symm) hl

/-! ## 2. The splits of the library -/

/-- Splitting before a suffix takes the first place that passes, or the end. -/
theorem breakSuffix_shortest (test : List Char → Bool) (s : List Char) :
    Shortest (Until (test · = true)) s (breakSuffix test s).1 (breakSuffix test s).2 := by
  refine ⟨breakSuffix_append test s, breakSuffix_snd test s, ?_⟩
  induction s with
  | nil => exact fun _ _ _ _ => Nat.zero_le _
  | cons c s ih =>
    intro a' b' hs hp
    rw [breakSuffix_cons]
    split
    · exact Nat.zero_le _
    · next hc =>
      cases a' with
      | nil =>
        rw [List.nil_append] at hs
        rcases hp with hp | hp
        · exact absurd (hs.symm.trans hp) (by simp)
        · exact absurd (hs ▸ hp) hc
      | cons d a' =>
        rw [List.cons_append, List.cons.injEq] at hs
        exact Nat.succ_le_succ (ih a' b' hs.2 hp)

/-- The part up to the first character of a kind. -/
theorem shortest_endsWith_iff {c : Char} {s a b : List Char} :
    Shortest (EndsWith c) s a b ↔ ∃ t, a = t ++ [c] ∧ c ∉ t ∧ s = t ++ c :: b := by
  constructor
  · rintro ⟨hs, ⟨t, rfl⟩, hl⟩
    refine ⟨t, rfl, fun hm => ?_, by simp [← hs]⟩
    obtain ⟨u, v, rfl⟩ := List.append_of_mem hm
    have hlen := hl (u ++ [c]) (v ++ c :: b) (by simp [← hs]) ⟨u, rfl⟩
    simp only [List.length_append, List.length_cons, List.length_nil] at hlen
    omega
  · rintro ⟨t, rfl, ht, rfl⟩
    refine ⟨by simp, ⟨t, rfl⟩, ?_⟩
    rintro _ b' hs ⟨t', rfl⟩
    rw [List.append_assoc, List.singleton_append] at hs
    have hle : t.length ≤ t'.length := by
      rcases Nat.lt_or_ge t'.length t.length with hlt | hge
      · rcases List.append_eq_append_iff.mp hs with ⟨u, hu, hv⟩ | ⟨u, hu, _⟩
        · cases u with
          | nil => simp [hu] at hlt
          | cons d u =>
            rw [List.cons_append, List.cons.injEq] at hv
            exact absurd (by simp [hu, hv.1]) ht
        · rw [hu, List.length_append] at hlt
          omega
      · exact hge
    simpa using hle

theorem breakAfter_eq_some_iff {c : Char} {s a b : List Char} :
    breakAfter (· == c) s = some (a, b) ↔ Shortest (EndsWith c) s a b := by
  rw [shortest_endsWith_iff]
  induction s generalizing a with
  | nil =>
    rw [breakAfter_nil]
    simp
  | cons d s ih =>
    rw [breakAfter_cons]
    by_cases hd : d = c
    · subst hd
      simp only [BEq.rfl, if_true, Option.some.injEq, Prod.mk.injEq]
      constructor
      · rintro ⟨rfl, rfl⟩
        exact ⟨[], rfl, by simp, rfl⟩
      · rintro ⟨t, rfl, ht, hs⟩
        cases t with
        | nil =>
          rw [List.nil_append, List.cons.injEq] at hs
          exact ⟨rfl, hs.2⟩
        | cons e t =>
          rw [List.cons_append, List.cons.injEq] at hs
          exact absurd (by simp [hs.1]) ht
    · rw [if_neg (by simpa using hd), Option.map_eq_some_iff]
      constructor
      · rintro ⟨⟨a', b'⟩, h, he⟩
        rw [Prod.mk.injEq] at he
        obtain ⟨rfl, rfl⟩ := he
        obtain ⟨t, rfl, ht, rfl⟩ := ih.mp h
        exact ⟨d :: t, rfl, by simp [ht, Ne.symm hd], rfl⟩
      · rintro ⟨t, rfl, ht, hs⟩
        cases t with
        | nil =>
          rw [List.nil_append, List.cons.injEq] at hs
          exact absurd hs.1 hd
        | cons e t =>
          rw [List.cons_append, List.cons.injEq] at hs
          obtain ⟨rfl, rfl⟩ := hs
          exact ⟨(t ++ [c], b),
            ih.mpr ⟨t, rfl, fun hm => ht (List.mem_cons_of_mem _ hm), rfl⟩, rfl⟩

theorem breakAfter_eq_none_iff {c : Char} {s : List Char} :
    breakAfter (· == c) s = none ↔ c ∉ s := by
  induction s with
  | nil =>
    rw [breakAfter_nil]
    simp
  | cons d s ih =>
    rw [breakAfter_cons]
    by_cases hd : d = c
    · simp [hd]
    · simp [hd, Ne.symm hd, ih]

theorem breakAfter_isSome_iff {c : Char} {s : List Char} :
    (breakAfter (· == c) s).isSome = true ↔ c ∈ s := by
  rw [Option.isSome_iff_ne_none, ne_eq, breakAfter_eq_none_iff, Decidable.not_not]

/-- The characters up to the first that fails. -/
theorem takeWhile_shortest (p : Char → Bool) (s : List Char) :
    Shortest (Until fun b => ∃ c t, b = c :: t ∧ p c = false) s (s.takeWhile p)
      (s.dropWhile p) := by
  refine ⟨List.takeWhile_append_dropWhile, ?_, ?_⟩
  · cases h : s.dropWhile p with
    | nil => exact Or.inl rfl
    | cons c t => exact Or.inr ⟨c, t, rfl, by simpa [h] using List.head?_dropWhile_not p s⟩
  · intro a b hs hp
    have hle : (s.takeWhile p) <+: a := by
      subst hs
      rcases hp with rfl | ⟨c, t, rfl, hc⟩
      · simpa using List.takeWhile_prefix p
      · rw [List.takeWhile_append]
        split
        · simp [hc]
        · exact List.takeWhile_prefix p
    exact hle.length_le

/-! ## 3. Another second part -/

/-- A test that looks at the first part alone does not mind what follows. -/
theorem Shortest.replace {P : List Char → List Char → Prop} {s a b : List Char}
    (hP : ∀ a b b', P a b → P a b') (h : Shortest P s a b) (x : List Char) :
    Shortest P (a ++ x) a x := by
  refine ⟨rfl, hP a b x h.pass, fun a' b' hs hp => ?_⟩
  rcases List.append_eq_append_iff.mp hs with ⟨u, rfl, _⟩ | ⟨u, rfl, _⟩
  · exact h.least a' (u ++ b) (by rw [← List.append_assoc, h.parts]) (hP a' b' _ hp)
  · simp

/-- A test that asks what the second part starts with allows to cut the text off where it stops,
or where the test still holds of what is left. -/
theorem Shortest.truncate {T : List Char → Prop} {s a x y : List Char}
    (hT : ∀ t u, T t → T (t ++ u)) (h : Shortest (Until T) s a (x ++ y)) (hx : x = [] ∨ T x) :
    Shortest (Until T) (a ++ x) a x := by
  refine ⟨rfl, hx, fun a' b' hs hp => ?_⟩
  rcases List.append_eq_append_iff.mp hs with ⟨u, rfl, rfl⟩ | ⟨u, rfl, _⟩
  · cases u with
    | nil => simp
    | cons c u =>
      -- an earlier place that passes now has passed before the cut
      have hp' : T ((c :: u ++ x) ++ y) := hT _ _ (hp.resolve_left (by simp))
      exact h.least a' _ (by rw [← h.parts]; simp) (Or.inr hp')
  · simp

end MarkupLint.Text
