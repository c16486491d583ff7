import MarkupLint.Proofs.ExitStatus

/-!
# Settings that are accepted

A text that spells a configuration is looked over when it is parsed: first the version, then the
patterns to include, then those to exclude, each list from its start on. Only the first thing that
is wrong is told. A walk reads the patterns again, on its own and with one more of its own; as both
agree on what a glob is, no pattern that was accepted fails there.

Results:
1. `badGlob?_eq_some_iff`, `problem?_eq_some_iff`, `parse_eq_error_iff`: what is told of a text.
2. `rules_of_ofEntries?`, `keys_of_ofEntries?`: the table of rules.
3. `unreadable_of_discover`, `badGlobLine_not_mem_check`: the patterns on a walk.
4. `parse_screens`: all of it.
-/

namespace MarkupLint.Cli

open Config Files Lint

/-! ## Definitions -/

/-- The text can name a rule. -/
structure NamesRule (key : List Char) : Prop where
  nonempty : key ≠ []
  chars : ∀ c ∈ key, Unicode.isAlphanumeric c = true ∨ c = '-' ∨ c = '_'

/-- The pattern is no glob, while those before it in the list are. -/
def FirstBad (patterns : List String) (pattern : String) (e : Glob.GlobError) : Prop :=
  ∃ before after, patterns = before ++ pattern :: after ∧
    (∀ q ∈ before, ∃ g, Glob.ofText {} q = .ok g) ∧ Glob.ofText {} pattern = .error e

/-- What is told of settings that have a value that is not allowed. -/
inductive Complaint (c : Config) : String → Prop
  | version : c.version ≠ "1" →
      Complaint c ("Unsupported configuration version '" ++ c.version ++ "'. Expected '1'")
  | includes {pattern : String} {e : Glob.GlobError} : c.version = "1" →
      FirstBad c.includes pattern e →
      Complaint c ("Invalid include glob pattern '" ++ pattern ++ "': " ++ e.message pattern)
  | excludes {pattern : String} {e : Glob.GlobError} : c.version = "1" →
      (∀ q ∈ c.includes, ∃ g, Glob.ofText {} q = .ok g) → FirstBad c.excludes pattern e →
      Complaint c ("Invalid exclude glob pattern '" ++ pattern ++ "': " ++ e.message pattern)

variable {t : FileTree} {c : Config} {s : List Char} {es : Toml.Entries}

/-! ## 1. What is told of a text -/

theorem badGlob?_eq_some_iff {use : String} {patterns : List String} {problem : String} :
    badGlob? use patterns = some problem ↔ ∃ pattern e, FirstBad patterns pattern e ∧ problem =
      "Invalid " ++ use ++ " glob pattern '" ++ pattern ++ "': " ++ e.message pattern := by
  rw [badGlob?, List.findSome?_eq_some_iff]
  constructor
  · rintro ⟨before, pattern, after, hp, hbad, hb⟩
    cases he : Glob.ofText {} pattern with
    | ok g =>
      rw [he] at hbad
      cases hbad
    | error e =>
      rw [he] at hbad
      refine ⟨pattern, e, ⟨before, after, hp, ?_, he⟩, (Option.some.inj hbad).symm⟩
      exact badGlob?_eq_none_iff.mp (List.findSome?_eq_none_iff.mpr hb)
  · rintro ⟨pattern, e, ⟨before, after, hp, hb, he⟩, rfl⟩
    refine ⟨before, pattern, after, hp, by rw [he], ?_⟩
    exact List.findSome?_eq_none_iff.mp (badGlob?_eq_none_iff.mpr hb)

/-- The version comes before the patterns, and those to include before those to exclude. -/
theorem problem?_eq_some_iff {problem : String} :
    problem? c = some problem ↔ Complaint c problem := by
  have hversion : "Unsupported configuration version '" ++ c.version ++ "'. Expected '" ++
      currentVersion ++ "'" =
        "Unsupported configuration version '" ++ c.version ++ "'. Expected '1'" := by
    rw [String.append_assoc, String.append_assoc]
    rfl
  unfold problem?
  split
  · next hv =>
    rw [Option.orElse_eq_some, badGlob?_eq_some_iff, badGlob?_eq_some_iff, badGlob?_eq_none_iff]
    constructor
    · rintro (⟨pattern, e, hb, rfl⟩ | ⟨hi, pattern, e, hb, rfl⟩)
      · exact .includes hv hb
      · exact .excludes hv hi hb
    · intro h
      cases h with
      | version hn => exact absurd hv hn
      | includes _ hb => exact .inl ⟨_, _, hb, rfl⟩
      | excludes _ hi hb => exact .inr ⟨hi, _, _, hb, rfl⟩
  · next hv =>
    constructor
    · intro h
      rw [← Option.some.inj h]
      exact hversion ▸ .version hv
    · intro h
      cases h with
      | version _ => exact congrArg some hversion
      | includes hv' _ => exact absurd hv' hv
      | excludes hv' _ _ => exact absurd hv' hv

theorem parse_eq_ok_iff : parse s = .ok c ↔
    (∃ es, Toml.read? s = some es ∧ ofEntries? es = some c) ∧ IsValid c := by
  rw [← problem?_eq_none_iff, ← Option.bind_eq_some_iff, parse]
  cases (Toml.read? s).bind ofEntries? with
  | none => simp
  | some c' =>
    dsimp only
    cases hp : problem? c' with
    | none =>
      constructor
      · intro h
        obtain rfl := Except.ok.inj h
        exact ⟨rfl, hp⟩
      · rintro ⟨h, -⟩
        rw [Option.some.inj h]
    | some problem =>
      constructor
      · intro h
        cases h
      · rintro ⟨h, hn⟩
        rw [← Option.some.inj h, hp] at hn
        cases hn

theorem parse_eq_error_iff (hr : Toml.read? s = some es) (hs : ofEntries? es = some c)
    {e : ConfigError} :
    parse s = .error e ↔ ∃ problem, Complaint c problem ∧ e = .invalid problem := by
  have hb : (Toml.read? s).bind ofEntries? = some c := Option.bind_eq_some_iff.mpr ⟨es, hr, hs⟩
  rw [parse, hb]
  simp only [← problem?_eq_some_iff]
  cases problem? c with
  | none => simp
  | some problem => simp [eq_comm]

set_option maxRecDepth 4000 in
/-- The default that is written is accepted. -/
theorem exists_parse_defaultText : ∃ c, parse defaultText.toList = .ok c := by
  -- the characters are written out first, as finding them in the bytes of the string takes long
  have htext : defaultText.toList = _ := String.toList_ofList
  have h : (parse defaultText.toList).toBool = true := by
    rw [htext]
    decide +kernel
  cases hp : parse defaultText.toList with
  | error e =>
    rw [hp] at h
    cases h
  | ok c => exact ⟨c, rfl⟩

theorem loadOrFind_eq_ok_iff {config : Option Path} :
    loadOrFind t config = .ok c ↔ Loads t (config.getD filePath) c := by
  refine ⟨fun h => ?_, loadOrFind_of_loads⟩
  cases ht : textOf? t (config.getD filePath) with
  | none =>
    obtain ⟨problem, hu⟩ := loadOrFind_of_unreadable (textOf?_eq_none_iff.mp ht)
    rw [hu] at h
    cases h
  | some text =>
    rw [loadOrFind_of_text ht, parse_eq_ok_iff] at h
    obtain ⟨⟨es, hr, hs⟩, hv⟩ := h
    exact ⟨⟨text, es, ht, hr, hs⟩, hv⟩

/-- There is a complaint exactly if the settings have a value that is not allowed. -/
theorem exists_complaint_iff : (∃ problem, Complaint c problem) ↔ ¬IsValid c := by
  rw [← problem?_eq_none_iff, ← ne_eq, Option.ne_none_iff_exists']
  exact exists_congr fun problem => problem?_eq_some_iff.symm

theorem not_isValid_iff : ¬IsValid c ↔ c.version ≠ "1" ∨
    ∃ pattern ∈ c.includes ++ c.excludes, ∃ e, Glob.ofText {} pattern = .error e := by
  have hbad (pattern : String) : (¬∃ g, Glob.ofText {} pattern = .ok g) ↔
      ∃ e, Glob.ofText {} pattern = .error e := by
    cases Glob.ofText {} pattern <;> simp
  constructor
  · intro h
    by_contra hn
    rw [not_or, not_not] at hn
    refine h ⟨hn.1, fun pattern hp => by_contra fun hg => hn.2 ⟨pattern, hp, ?_⟩⟩
    exact (hbad pattern).mp hg
  · rintro (hv | ⟨pattern, hp, he⟩) h
    · exact hv h.version
    · exact (hbad pattern).mpr he (h.globs pattern hp)

/-! ## 2. The table of rules -/

theorem namesRule_text (id : RuleId) : NamesRule id.text.toList := by
  have hv := id.valid
  simp only [isIdText, Bool.and_eq_true, bne_iff_ne, List.all_eq_true] at hv
  refine ⟨fun h => hv.1 (String.toList_eq_nil_iff.mp h), fun c hc => ?_⟩
  have hid := hv.2 c hc
  simp only [isIdChar, Bool.or_eq_true, beq_iff_eq] at hid
  rcases hid with ((h | h) | h) | h
  · exact .inl (Unicode.isAlphanumeric_of_isAlphanum h)
  · exact .inr (.inl h)
  · exact .inr (.inr h)
  · exact .inl h

theorem rules_of_readOutput? {c' : Config} {v : Toml.Value} (h : readOutput? c v = some c') :
    c'.rules = c.rules := by
  unfold readOutput? at h
  split at h
  · cases h
  · split at h
    · obtain rfl := Option.some.inj h
      rfl
    · cases h

/-- The rules are those of their own table; the rest of the document has no part in them. -/
theorem rules_of_ofEntries? (h : ofEntries? es = some c) {v : Toml.Value}
    (hv : Toml.lookup (keyOf "rules") es = some v) : readRules? v = some c.rules := by
  unfold ofEntries? at h
  split at h
  · cases h
  · split at h
    · cases h
    · next rules hr =>
      have hrules : c.rules = rules := by
        rw [Fields.getD] at h
        split at h
        · obtain rfl := Option.some.inj h
          rfl
        · exact rules_of_readOutput? h
      rw [hrules, ← hr, Fields.getD, Fields.get?, hv]

/-- What is read of a list is read of each of its members. -/
theorem exists_mem_of_mapM {α β : Type} {f : α → Option β} {as : List α} {bs : List β}
    (h : as.mapM f = some bs) {a : α} (ha : a ∈ as) : ∃ b ∈ bs, f a = some b := by
  induction as generalizing bs with
  | nil => cases ha
  | cons a' as ih =>
    rw [List.mapM_cons] at h
    obtain ⟨b', hb', h⟩ := Option.bind_eq_some_iff.mp h
    obtain ⟨bs', hbs', h⟩ := Option.bind_eq_some_iff.mp h
    obtain rfl := Option.some.inj h
    rcases List.mem_cons.mp ha with rfl | ha
    · exact ⟨b', List.mem_cons_self, hb'⟩
    · obtain ⟨b, hb, hf⟩ := ih hbs' ha
      exact ⟨b, List.mem_cons_of_mem _ hb, hf⟩

/-- Every key of the table of rules names a rule that the configuration has. -/
theorem keys_of_ofEntries? (h : ofEntries? es = some c) {v : Toml.Value}
    (hv : Toml.lookup (keyOf "rules") es = some v) :
    ∃ origin entries, v = .table origin entries ∧ ∀ e ∈ entries, NamesRule e.1 ∧
      ∃ id o, id.text.toList = e.1 ∧ c.rules.get? id = some o := by
  have hr := rules_of_ofEntries? h hv
  unfold readRules? at hr
  split at hr
  · next origin entries =>
    obtain ⟨rs, hm, hrs⟩ := Option.map_eq_some_iff.mp hr
    refine ⟨origin, entries, rfl, fun e he => ?_⟩
    obtain ⟨⟨id, o⟩, hb, hf⟩ := exists_mem_of_mapM hm he
    have hid : RuleId.ofText? (String.ofList e.1) = some id := by
      unfold readRule? at hf
      split at hf
      · next hid _ =>
        obtain ⟨rfl, -⟩ := Prod.mk.inj (Option.some.inj hf)
        exact hid
      · cases hf
    have hkey : id.text.toList = e.1 := by
      rw [RuleId.text_of_ofText? hid, String.toList_ofList]
    have hg : (c.rules.get? id).isSome := by
      rw [← hrs]
      exact IdMap.isSome_foldl_set (.inl (List.mem_map.mpr ⟨_, hb, rfl⟩))
    obtain ⟨o', ho'⟩ := Option.isSome_iff_exists.mp hg
    exact ⟨hkey ▸ namesRule_text id, id, o', hkey, ho'⟩
  · cases hr

/-! ## 3. The patterns on a walk -/

theorem walk_eq_error_iff {root : Path} {sel : Selection} {e : WalkError} :
    walk t root sel = .error e ↔
      ∃ problem, visits t root = .error problem ∧ e = .unreadable root problem := by
  unfold walk walkAll
  cases visits t root with
  | error problem => simp [Except.map, eq_comm]
  | ok vs => simp [Except.map]

theorem spot_of_visits_error {root : Path} {problem : FileError}
    (h : visits t root = .error problem) : t.spot root = .error problem := by
  unfold visits at h
  split at h
  · cases h
  · cases hs : t.spot root with
    | error problem' =>
      rw [hs] at h
      exact congrArg Except.error (Except.error.inj h)
    | ok s =>
      rw [hs] at h
      cases h

/-- Discovery fails where the roots are walked. -/
theorem discover_eq_error_iff {includes excludes : List String} {roots : List Path}
    {e : WalkError} : discover t includes excludes roots = .error e ↔
      walkRoots t includes excludes roots = .error e := by
  rw [discover]
  cases walkRoots t includes excludes roots with
  | error e' => simp [Except.map]
  | ok files => simp [Except.map]

theorem unreadable_of_walkRoots (h : IsValid c) {roots : List Path} {e : WalkError}
    (hw : walkRoots t c.includes c.excludes roots = .error e) :
    ∃ root ∈ roots, ∃ problem, t.spot root = .error problem ∧ e = .unreadable root problem := by
  obtain ⟨sel, hsel⟩ := exists_ofPatterns h
  induction roots with
  | nil => cases hw
  | cons root roots ih =>
    rw [walkRoots, hsel] at hw
    dsimp only at hw
    cases hroot : walk t root sel with
    | error e' =>
      rw [hroot] at hw
      obtain rfl := Except.error.inj hw
      obtain ⟨problem, hv, he⟩ := walk_eq_error_iff.mp hroot
      exact ⟨root, List.mem_cons_self, problem, spot_of_visits_error hv, he⟩
    | ok files =>
      rw [hroot] at hw
      cases hrest : walkRoots t c.includes c.excludes roots with
      | error e' =>
        rw [hrest] at hw
        obtain rfl := Except.error.inj hw
        obtain ⟨root', hr, problem, hs, he⟩ := ih hrest
        exact ⟨root', List.mem_cons_of_mem _ hr, problem, hs, he⟩
      | ok rest =>
        rw [hrest] at hw
        cases hw

/-- With valid settings, discovery fails only at a root that is not there. -/
theorem unreadable_of_discover (h : IsValid c) {roots : List Path} {e : WalkError}
    (hd : discover t c.includes c.excludes roots = .error e) :
    ∃ root ∈ roots, ∃ problem, t.spot root = .error problem ∧ e = .unreadable root problem :=
  unreadable_of_walkRoots h (discover_eq_error_iff.mp hd)

/-- Behind a text that begins with the character there may stand another one. -/
theorem head?_append {a b : String} {x : Char} (h : a.toList.head? = some x) :
    (a ++ b).toList.head? = some x := by
  rw [String.toList_append, List.head?_append, h]
  rfl

theorem ne_of_head? {a b : String} {x y : Char} (ha : a.toList.head? = some x)
    (hb : b.toList.head? = some y) (h : x ≠ y) : a ≠ b := by
  rintro rfl
  exact h (Option.some.inj (ha.symm.trans hb))

theorem Output.error_inj {a b : String} (h : Output.error a = Output.error b) : a = b :=
  (String.append_right_inj _).mp (Output.line.inj h)

/-- What is said of a walk that finds a pattern to be no glob. -/
def badGlobLine (glob : String) (e : Glob.GlobError) : Output :=
  .error ("File walker error: " ++ (WalkError.invalidGlob glob e).message)

section

variable {l : Linter} {glob : String} {e : Glob.GlobError}

theorem error_ne_badGlobLine {problem : String} {x : Char} (h : problem.toList.head? = some x)
    (hx : x ≠ 'F') : badGlobLine glob e ≠ .error problem := fun he =>
  ne_of_head? (head?_append rfl) h hx.symm (Output.error_inj he)

theorem line_ne_badGlobLine {s : String} {x : Char} (h : s.toList.head? = some x) (hx : x ≠ 'E') :
    badGlobLine glob e ≠ .line s := fun he =>
  ne_of_head? (head?_append rfl) h hx.symm (Output.line.inj he)

theorem badGlobLine_not_mem_introduction : badGlobLine glob e ∉ introduction l := by
  rw [introduction, List.mem_append, not_or]
  constructor
  · intro hm
    obtain ⟨r, -, hr⟩ := List.mem_map.mp hm
    cases hr
  · intro hm
    obtain ⟨problem, -, hp⟩ := List.mem_map.mp hm
    have hr : problem.message.toList.head? = some 'r' :=
      head?_append (head?_append (head?_append rfl))
    exact error_ne_badGlobLine hr (by decide) hp.symm

theorem badGlobLine_not_mem_checkFiles {files : List Path} {format : OutputFormat}
    {colored : Bool} : badGlobLine glob e ∉ (checkFiles t l format colored files).outputs := by
  unfold checkFiles
  dsimp only
  rw [List.mem_append, List.mem_append, not_or, not_or]
  refine ⟨⟨?_, ?_⟩, ?_⟩
  · cases format with
    | jsonl => exact List.not_mem_nil
    | human =>
      intro hm
      refine line_ne_badGlobLine (x := 'C') ?_ (by decide) (List.mem_singleton.mp hm)
      exact head?_append (head?_append (head?_append (head?_append rfl)))
  · intro hm
    obtain ⟨o, -, ho⟩ := List.mem_map.mp hm
    cases ho
  · intro hm
    cases List.mem_singleton.mp hm

theorem badGlobLine_not_mem_checkRoots (h : IsValid c) {roots : List Path}
    {format : OutputFormat} {colored : Bool} :
    badGlobLine glob e ∉ (checkRoots t l c format colored roots).outputs := by
  unfold checkRoots
  split
  · intro hm
    exact line_ne_badGlobLine (head?_append rfl) (by decide) (List.mem_singleton.mp hm)
  · split
    · next e' hd =>
      obtain ⟨root, -, problem, -, rfl⟩ := unreadable_of_discover h hd
      intro hm
      have hmessage : (WalkError.invalidGlob glob e).message =
          (WalkError.unreadable root problem).message := by
        have he := Output.error_inj (List.mem_singleton.mp hm)
        exact (String.append_right_inj _).mp he
      refine ne_of_head? (x := 'I') (y := 'W') ?_ ?_ (by decide) hmessage
      · exact head?_append (head?_append (head?_append rfl))
      · exact head?_append (head?_append (head?_append (head?_append (head?_append rfl))))
    · intro hm
      exact line_ne_badGlobLine (head?_append rfl) (by decide) (List.mem_singleton.mp hm)
    · exact badGlobLine_not_mem_checkFiles

/-- No check comes to say that a pattern is no glob on a walk. -/
theorem badGlobLine_not_mem_check (surroundings : Surroundings) (color : Option ColorChoice)
    (roots : List Path) (format : Option OutputFormat) (config : Option Path) :
    badGlobLine glob e ∉ (check t surroundings color roots format config).outputs := by
  intro hm
  unfold check at hm
  cases hc : loadOrFind t config with
  | error problem =>
    rw [hc] at hm
    exact error_ne_badGlobLine (head?_append rfl) (by decide) (List.mem_singleton.mp hm)
  | ok c =>
    rw [hc] at hm
    rcases List.mem_append.mp hm with hm | hm
    · exact badGlobLine_not_mem_introduction hm
    · exact badGlobLine_not_mem_checkRoots (loadOrFind_eq_ok_iff.mp hc).valid hm

end

/-! ## 4. All of it -/

/-- What holds of the settings of a text that is accepted. -/
structure Accepted (s : List Char) (c : Config) : Prop where
  version : c.version = "1"
  globs : ∀ pattern ∈ c.includes ++ c.excludes, ∃ g, Glob.ofText {} pattern = .ok g
  /-- The rules are told apart by names, -/
  names : ∀ id o, c.rules.get? id = some o → NamesRule id.text.toList
  /-- and every key of the table of rules in the document is the name of one of them. -/
  keys : ∀ es v, Toml.read? s = some es → Toml.lookup (keyOf "rules") es = some v →
    ∃ origin entries, v = .table origin entries ∧ ∀ e ∈ entries, NamesRule e.1 ∧
      ∃ id o, id.text.toList = e.1 ∧ c.rules.get? id = some o
  /-- The patterns are read again without an error, -/
  selection : ∃ sel, Selection.ofPatterns c.includes c.excludes = .ok sel
  /-- so that a walk fails only at a root that is not there, whatever the tree and the root. -/
  walks : ∀ t roots e, discover t c.includes c.excludes roots = .error e →
    ∃ root ∈ roots, ∃ problem, t.spot root = .error problem ∧ e = .unreadable root problem

/-- How a text fares that spells the settings. -/
structure Screened (s : List Char) (c : Config) : Prop where
  accepted : parse s = .ok c ↔
    c.version = "1" ∧ ∀ pattern ∈ c.includes ++ c.excludes, ∃ g, Glob.ofText {} pattern = .ok g
  refused : (∃ e, parse s = .error e) ↔ c.version ≠ "1" ∨
    ∃ pattern ∈ c.includes ++ c.excludes, ∃ e, Glob.ofText {} pattern = .error e
  /-- The error tells what is wrong first: the version, or else a pattern to include, or else one to
  exclude. -/
  told : ∀ e, parse s = .error e ↔ ∃ problem, Complaint c problem ∧ e = .invalid problem

theorem accepted_of_parse (h : parse s = .ok c) : Accepted s c := by
  obtain ⟨⟨es, hr, hs⟩, hv⟩ := parse_eq_ok_iff.mp h
  constructor
  case version => exact hv.version
  case globs => exact hv.globs
  case names => exact fun id _ _ => namesRule_text id
  case keys =>
    intro es' v hr' hl
    obtain rfl := Option.some.inj (hr.symm.trans hr')
    exact keys_of_ofEntries? hs hl
  case selection => exact exists_ofPatterns hv
  case walks => exact fun t roots e => unreadable_of_discover hv

theorem screened_of_spelt (hr : Toml.read? s = some es) (hs : ofEntries? es = some c) :
    Screened s c := by
  have htold (e : ConfigError) := parse_eq_error_iff hr hs (e := e)
  constructor
  case accepted =>
    rw [parse_eq_ok_iff]
    constructor
    · rintro ⟨-, hv⟩
      exact ⟨hv.version, hv.globs⟩
    · rintro ⟨hv, hg⟩
      exact ⟨⟨es, hr, hs⟩, hv, hg⟩
  case refused =>
    rw [← not_isValid_iff, ← exists_complaint_iff]
    constructor
    · rintro ⟨e, he⟩
      obtain ⟨problem, hp, -⟩ := (htold e).mp he
      exact ⟨problem, hp⟩
    · rintro ⟨problem, hp⟩
      exact ⟨_, (htold _).mpr ⟨problem, hp, rfl⟩⟩
  case told => exact htold

/-- What is accepted is safe to use, what is refused is refused for the first thing that is not
allowed, and no check ever finds out on a walk that a pattern is no glob. -/
theorem parse_screens :
    (∀ s c, parse s = .ok c → Accepted s c) ∧
    (∀ s es c, Toml.read? s = some es → ofEntries? es = some c → Screened s c) ∧
    ∀ t surroundings color roots format config glob e,
      badGlobLine glob e ∉ (check t surroundings color roots format config).outputs :=
  ⟨fun _ _ => accepted_of_parse, fun _ _ _ => screened_of_spelt,
    fun _ surroundings color roots format config _ _ =>
      badGlobLine_not_mem_check surroundings color roots format config⟩

/-- Settings with a bad pattern in each list, behind a good one. -/
def twoSlipsText : String := "[marklint]
version = \"1\"
include = [\"*.html\", \"[a\", \"*.htm\"]
exclude = [\"\x7bb\"]
"

/-- The default is accepted, and of two slips the one in the patterns to include is told. -/
theorem parse_screens_two_slips :
    (∃ c, parse defaultText.toList = .ok c ∧ Accepted defaultText.toList c) ∧
    ∃ es c, Toml.read? twoSlipsText.toList = some es ∧ ofEntries? es = some c ∧
      Screened twoSlipsText.toList c ∧
      parse twoSlipsText.toList = .error (.invalid ("Invalid include glob pattern '[a': " ++
        "error parsing glob '[a': unclosed character class; missing ']'")) := by
  have hd : ∃ c, parse defaultText.toList = .ok c := exists_parse_defaultText
  have hi : ((Toml.read? twoSlipsText.toList).bind ofEntries?).map
      (fun c => (c.version, c.includes)) = some ("1", ["*.html", "[a", "*.htm"]) := by
    decide +kernel
  obtain ⟨c', hc'⟩ := hd
  obtain ⟨c, hc, hci⟩ := Option.map_eq_some_iff.mp hi
  obtain ⟨es, hr, hs⟩ := Option.bind_eq_some_iff.mp hc
  obtain ⟨hv, hincludes⟩ := Prod.mk.inj hci
  have hscreened := parse_screens.2.1 _ es c hr hs
  have hbad : FirstBad c.includes "[a" .unclosedSet := by
    refine ⟨["*.html"], ["*.htm"], hincludes, ?_, rfl⟩
    exact List.forall_mem_singleton.mpr ⟨_, rfl⟩
  exact ⟨⟨c', hc', parse_screens.1 _ c' hc'⟩, es, c, hr, hs, hscreened,
    (hscreened.told _).mpr ⟨_, .includes hv hbad, rfl⟩⟩

end MarkupLint.Cli
