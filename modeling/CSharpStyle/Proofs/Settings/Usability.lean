import CSharpStyle.Analysis.Analyzer

/-!
# Settings that can be used

Settings are validated once, and an analyzer is made from them later. Validation drops all marks `!` in front of a
path pattern before it reads the glob, and the path filter only drops one. The two texts differ for patterns that
begin with `!!`, and these are the only ones that can make valid settings useless. Which patterns naming rules may have
does not matter, as long as the same reader of patterns is asked both times.

* `Settings.validate_eq_ok_iff`: what validation accepts.
* `RuleSet.ofSelections_of_validate`: the rules of valid settings can always be prepared.
* `Settings.usable_iff`: when an analyzer can be made from valid settings, and how it fails otherwise.
-/

namespace CSharpStyle

theorem Except.eq_ok_of_isOk {ε : Type} {result : Except ε Unit} (h : result.isOk) : result = .ok () := by
  cases result with
  | ok u => rfl
  | error e => cases h

theorem Except.eq_ok_of_toOption {ε α : Type} {result : Except ε α} {value : α} (h : result.toOption = some value) :
    result = .ok value := by
  cases result with
  | ok found => exact congrArg Except.ok (Option.some.inj h)
  | error e => cases h

theorem Except.forM_eq_ok_iff {ε α : Type} {check : α → Except ε Unit} {items : List α} :
    items.forM check = .ok () ↔ ∀ a ∈ items, check a = .ok () := by
  induction items with
  | nil => exact iff_of_true rfl (List.forall_mem_nil _)
  | cons a items ih =>
    rw [List.forM, List.forall_mem_cons, ← ih]
    cases h : check a with
    | error e => exact iff_of_false (by rintro ⟨⟩) (by rintro ⟨⟨⟩, -⟩)
    | ok u => exact ⟨fun hrest => ⟨rfl, hrest⟩, fun hall => hall.2⟩

/-- Either all items are read, or the first one that is not says why. -/
theorem Except.mapM_cases {ε α β : Type} (read : α → Except ε β) (items : List α) :
    (∃ values, items.mapM read = .ok values ∧ ∀ a ∈ items, ∃ b, read a = .ok b) ∨
      ∃ a ∈ items, ∃ e, read a = .error e ∧ items.mapM read = .error e := by
  induction items with
  | nil => exact .inl ⟨[], rfl, List.forall_mem_nil _⟩
  | cons a items ih =>
    rw [List.mapM_cons]
    cases h : read a with
    | error e => exact .inr ⟨a, List.mem_cons_self .., e, h, rfl⟩
    | ok b =>
      rcases ih with ⟨values, hvalues, hall⟩ | ⟨c, hc, e, he, hitems⟩
      · refine .inl ⟨b :: values, by rw [hvalues]; rfl, List.forall_mem_cons.mpr ⟨⟨b, h⟩, hall⟩⟩
      · exact .inr ⟨c, List.mem_cons_of_mem _ hc, e, he, by rw [hitems]; rfl⟩

/-! ### Rules -/

namespace Rule

theorem ofName?_name (rule : Rule) : ofName? rule.name = some rule := by
  cases rule <;> decide

theorem isSome_defaultPattern? (rule : Rule) : rule.defaultPattern?.isSome = rule.isNaming := by
  cases rule <;> rfl

end Rule

variable {patterns : PatternReader}

/-- A naming rule can be prepared with any pattern that is read. -/
theorem NamingRule.exists_make {rule : Rule} (hnaming : rule.isNaming) {pattern : Option String}
    (hpattern : ∀ source ∈ pattern, (patterns.read? source).isSome) : ∃ n, make rule pattern patterns = .ok n := by
  obtain ⟨role, hrole⟩ := Option.isSome_iff_exists.mp hnaming
  obtain ⟨builtIn, hbuiltIn⟩ := Option.isSome_iff_exists.mp (rule.isSome_defaultPattern?.trans hnaming)
  have hsource : (patterns.read? (pattern.getD builtIn)).isSome := by
    cases pattern with
    | none => exact patterns.reads_builtIn rule builtIn hbuiltIn
    | some source => exact hpattern source rfl
  obtain ⟨accepts, haccepts⟩ := Option.isSome_iff_exists.mp hsource
  refine ⟨⟨rule, role, pattern.getD builtIn, accepts, pattern.isSome⟩, ?_⟩
  rw [make, hrole, hbuiltIn]
  simp only [haccepts]

theorem Check.ofRule_of_isNaming {rule : Rule} (h : rule.isNaming) (pattern : Option String) :
    ofRule rule pattern patterns = (NamingRule.make rule pattern patterns).map naming := by
  cases rule <;> first | rfl | cases h

theorem Check.exists_ofRule {rule : Rule} {pattern : Option String}
    (hpattern : ∀ source ∈ pattern, (patterns.read? source).isSome) :
    ∃ check, ofRule rule pattern patterns = .ok check := by
  cases hnaming : rule.isNaming with
  | true =>
    obtain ⟨n, hn⟩ := NamingRule.exists_make hnaming hpattern
    exact ⟨naming n, by rw [ofRule_of_isNaming hnaming, hn]; rfl⟩
  | false =>
    -- Only naming rules can fail, and those are excluded here.
    cases rule <;> first | exact ⟨_, rfl⟩ | cases hnaming

namespace Settings

variable {s : Settings}

/-- Validation accepts the supported version, path patterns whose text behind all marks is a glob, and for naming rules
the patterns that are read. -/
theorem validate_eq_ok_iff :
    s.validate patterns = .ok () ↔
      s.version = supportedVersion ∧ (∀ p ∈ s.paths.patterns, checkPathPattern p = .ok ()) ∧
        ∀ entry ∈ s.rules, checkRule entry.1 entry.2 patterns = .ok () := by
  rw [← Except.forM_eq_ok_iff, ← Except.forM_eq_ok_iff, validate]
  by_cases hversion : s.version = supportedVersion
  · have hne : (s.version != supportedVersion) = false := bne_eq_false_iff_eq.mpr hversion
    simp only [hne, Bool.false_eq_true, ↓reduceIte]
    cases hpatterns : s.paths.patterns.forM checkPathPattern with
    | error e => exact iff_of_false (by rintro ⟨⟩) (by rintro ⟨-, ⟨⟩, -⟩)
    | ok u => exact ⟨fun hrules => ⟨hversion, rfl, hrules⟩, fun hall => hall.2.2⟩
  · have hne : (s.version != supportedVersion) = true := bne_iff_ne.mpr hversion
    simp only [hne, ↓reduceIte]
    exact iff_of_false (by rintro ⟨⟩) fun hall => hversion hall.1

/-- A pattern that valid settings give a naming rule is read. -/
theorem read?_of_pattern? (h : s.validate patterns = .ok ()) {rule : Rule} {source : String}
    (hsource : s.pattern? rule = some source) : (patterns.read? source).isSome := by
  obtain ⟨hnaming, hpattern⟩ := Option.ite_none_right_eq_some.mp hsource
  have hentry : ∃ r, (rule.name, r) ∈ s.rules ∧ r.pattern = some source := by
    rw [ruleSettings] at hpattern
    cases hlookup : s.rules.lookup rule.name with
    | none => rw [hlookup] at hpattern; cases hpattern
    | some r =>
      rw [hlookup] at hpattern
      obtain ⟨before, behind, heq, -⟩ := List.lookup_eq_some_iff.mp hlookup
      exact ⟨r, heq ▸ List.mem_append_right _ (List.mem_cons_self ..), hpattern⟩
  obtain ⟨r, hmem, hr⟩ := hentry
  have hcheck := (validate_eq_ok_iff.mp h).2.2 _ hmem
  rw [checkRule, rule.ofName?_name, hr] at hcheck
  cases hread : patterns.read? source with
  | some accepts => rfl
  | none =>
    simp only [hnaming, hread, Option.isNone_none, Bool.and_self, ↓reduceIte] at hcheck
    cases hcheck

end Settings

/-- The rules that valid settings select can be prepared. -/
theorem RuleSet.ofSelections_of_validate {s : Settings} (h : s.validate patterns = .ok ()) :
    ∃ set, ofSelections s.selections patterns = .ok set := by
  rw [ofSelections]
  rcases Except.mapM_cases (fun c : Selection =>
    (Check.ofRule c.rule c.pattern patterns).map fun check => (⟨check, c.severity⟩ : EnabledCheck)) s.selections with
    ⟨set, hset, -⟩ | ⟨selection, hmem, e, he, -⟩
  · exact ⟨set, hset⟩
  · obtain ⟨rule, -, rfl⟩ := List.mem_map.mp hmem
    have hpattern : ∀ source ∈ s.pattern? rule, (patterns.read? source).isSome := fun source =>
      Settings.read?_of_pattern? h
    obtain ⟨check, hcheck⟩ := Check.exists_ofRule hpattern
    rw [hcheck] at he
    cases he

/-! ### Path patterns -/

namespace FilterPattern

/-- The pattern begins with two marks or more. -/
def doublesMark (pattern : String) : Bool := ['!', '!'].isPrefixOf pattern.toList

/-- The text of the glob that the path filter reads. -/
def globText (pattern : String) : String := String.ofList (body (splitMark pattern.toList).2)

/-- A pattern is read if its text is a glob, and the failure names the pattern otherwise. -/
theorem parse_cases (pattern : String) :
    (∃ f glob, parse pattern = .ok f ∧ Glob.parse (globText pattern) = .ok glob) ∨
      ∃ e, parse pattern = .error ⟨pattern, e⟩ ∧ Glob.parse (globText pattern) = .error e := by
  rw [parse, globText]
  generalize splitMark pattern.toList = split
  obtain ⟨includes, rest⟩ := split
  simp only
  cases Glob.parse (String.ofList (body rest)) with
  | ok glob => exact .inl ⟨_, glob, rfl, rfl⟩
  | error e => exact .inr ⟨e, rfl, rfl⟩

/-- With at most one mark, validation and the path filter read the same glob. -/
theorem globText_eq {pattern : String} (h : doublesMark pattern = false) :
    globText pattern = Settings.globText pattern := by
  rw [doublesMark] at h
  rw [globText, Settings.globText]
  congr 1
  generalize pattern.toList = text at h ⊢
  rcases text with _ | ⟨c, text⟩
  · rfl
  · by_cases hc : c = '!'
    · subst hc
      have hrest : text.dropWhile (· == '!') = text := by
        rcases text with _ | ⟨d, text⟩
        · rfl
        · exact List.dropWhile_cons_of_neg fun hd => by
            rw [eq_of_beq hd] at h
            cases h
      rw [List.dropWhile_cons_of_pos (by rfl), hrest]
      rfl
    · rw [List.dropWhile_cons_of_neg (by simpa using hc)]
      have hsplit : splitMark (c :: text) = (false, c :: text) := by
        rw [splitMark]
        rintro rest ⟨⟩
        exact hc rfl
      rw [hsplit]
      rfl

/-- A pattern that validation accepts can only be refused later if it begins with two marks. -/
theorem doublesMark_of_refused {pattern : String} (hvalid : Settings.checkPathPattern pattern = .ok ())
    {e : GlobError} (h : Glob.parse (globText pattern) = .error e) : doublesMark pattern := by
  cases hmark : doublesMark pattern with
  | true => rfl
  | false =>
    rw [globText_eq hmark] at h
    rw [Settings.checkPathPattern, h] at hvalid
    cases hvalid

end FilterPattern

/-! ### Analyzers -/

/-- Making an analyzer from valid settings comes down to making their path filter. -/
theorem Analyzer.ofSettings_of_validate {s : Settings} (h : s.validate patterns = .ok ()) (symbols : Symbols) :
    (∃ a, ofSettings s symbols patterns = .ok a ∧ ∀ p ∈ s.paths.patterns, ∃ f, FilterPattern.parse p = .ok f) ∨
      ∃ p ∈ s.paths.patterns, ∃ e, FilterPattern.parse p = .error e ∧
        ofSettings s symbols patterns = .error (.invalidPathFilter e) := by
  obtain ⟨set, hset⟩ := RuleSet.ofSelections_of_validate h
  rcases Except.mapM_cases FilterPattern.parse s.paths.patterns with
    ⟨paths, hpaths, hall⟩ | ⟨p, hp, e, he, hpaths⟩
  · have hfilter : PathFilter.ofPatterns s.paths.patterns s.paths.ignoreFile =
        .ok ⟨paths, s.paths.ignoreFile.filter (· != "")⟩ := by
      rw [PathFilter.ofPatterns, hpaths]
      rfl
    refine .inl ⟨⟨s, ⟨paths, s.paths.ignoreFile.filter (· != "")⟩, ⟨set, symbols⟩⟩, ?_, hall⟩
    rw [ofSettings, h, hfilter, hset]
    rfl
  · have hfilter : PathFilter.ofPatterns s.paths.patterns s.paths.ignoreFile = .error e := by
      rw [PathFilter.ofPatterns, hpaths]
      rfl
    refine .inr ⟨p, hp, e, he, ?_⟩
    rw [ofSettings, h, hfilter]
    rfl

/-- With at most one mark in front of each pattern, valid settings can be used. -/
theorem Analyzer.exists_ofSettings {s : Settings} (h : s.validate patterns = .ok ())
    (hmarks : ∀ p ∈ s.paths.patterns, FilterPattern.doublesMark p = false) (symbols : Symbols) :
    ∃ a, ofSettings s symbols patterns = .ok a := by
  rcases ofSettings_of_validate h symbols with ⟨a, ha, -⟩ | ⟨p, hp, e, he, -⟩
  · exact ⟨a, ha⟩
  · rcases FilterPattern.parse_cases p with ⟨_, _, hf, -⟩ | ⟨_, -, hglob⟩
    · rw [hf] at he
      cases he
    · have hmark := FilterPattern.doublesMark_of_refused ((Settings.validate_eq_ok_iff.mp h).2.1 p hp) hglob
      rw [hmarks p hp] at hmark
      cases hmark

namespace Settings

/-- An analyzer can be made from valid settings if and only if every path pattern that begins with `!!` is a glob
behind its first mark. Nothing else can go wrong, and the failure names such a pattern. -/
theorem usable_iff {s : Settings} (h : s.validate patterns = .ok ()) (symbols : Symbols) :
    ((∃ a, Analyzer.ofSettings s symbols patterns = .ok a) ↔
      ∀ p ∈ s.paths.patterns, FilterPattern.doublesMark p →
        ∃ glob, Glob.parse (FilterPattern.globText p) = .ok glob) ∧
    ∀ failure, Analyzer.ofSettings s symbols patterns = .error failure →
      ∃ e, failure = .invalidPathFilter e ∧ e.pattern ∈ s.paths.patterns ∧ FilterPattern.doublesMark e.pattern := by
  rcases Analyzer.ofSettings_of_validate h symbols with ⟨a, ha, hall⟩ | ⟨p, hp, e, he, hfailed⟩
  · refine ⟨iff_of_true ⟨a, ha⟩ fun p hp _ => ?_, fun failure hfailed => ?_⟩
    · obtain ⟨f, hf⟩ := hall p hp
      rcases FilterPattern.parse_cases p with ⟨_, glob, -, hglob⟩ | ⟨e, he, -⟩
      · exact ⟨glob, hglob⟩
      · rw [hf] at he
        cases he
    · rw [ha] at hfailed
      cases hfailed
  · rcases FilterPattern.parse_cases p with ⟨_, _, hf, -⟩ | ⟨fault, hfault, hglob⟩
    · rw [hf] at he
      cases he
    have hmark := FilterPattern.doublesMark_of_refused ((validate_eq_ok_iff.mp h).2.1 p hp) hglob
    have he : e = ⟨p, fault⟩ := Except.error.inj (he.symm.trans hfault)
    subst he
    refine ⟨iff_of_false ?_ fun hall => ?_, fun failure hfailure => ?_⟩
    · rintro ⟨a, ha⟩
      rw [hfailed] at ha
      cases ha
    · obtain ⟨glob, hread⟩ := hall p hp hmark
      rw [hglob] at hread
      cases hread
    · rw [hfailed] at hfailure
      cases hfailure
      exact ⟨_, rfl, hp, hmark⟩

/-- Behind its first mark `!!/keep/` is the glob `!/keep`, and a naming rule has a pattern of its own. -/
theorem usable_doubled_mark :
    let s : Settings :=
      { paths := { patterns := ["**/bin/**", "!!/keep/"] }
        rules := [("PascalCaseType", { pattern := some "^[A-Z]" }), ("Unknown", { pattern := some "(" })] }
    s.validate = .ok () ∧ ∃ a, Analyzer.ofSettings s .unknown = .ok a := by
  intro s
  have hvalid : s.validate = .ok () := Except.eq_ok_of_isOk (by decide +kernel)
  refine ⟨hvalid, (usable_iff hvalid .unknown).1.mpr fun p hp hmark => ?_⟩
  have hp : p = "**/bin/**" ∨ p = "!!/keep/" := by simpa [s] using hp
  rcases hp with rfl | rfl
  · exact absurd hmark (by decide)
  · exact ⟨['!', '/', 'k', 'e', 'e', 'p'].map .literal, rfl⟩

/-- Behind its first mark `!!**/bin/**` is no glob, because `**` stands behind a `!` there. -/
theorem unusable_doubled_mark :
    let s : Settings := { paths := { patterns := ["!!**/bin/**"] } }
    s.validate = .ok () ∧ ∀ symbols, ¬ ∃ a, Analyzer.ofSettings s symbols = .ok a := by
  intro s
  have hvalid : s.validate = .ok () := Except.eq_ok_of_isOk (by decide +kernel)
  refine ⟨hvalid, fun symbols hmade => ?_⟩
  rcases Analyzer.ofSettings_of_validate hvalid symbols with ⟨-, -, hall⟩ | ⟨_, -, _, -, hfailed⟩
  · obtain ⟨f, hf⟩ := hall "!!**/bin/**" (List.mem_singleton.mpr rfl)
    have hrefused : (FilterPattern.parse "!!**/bin/**").toOption = none := by decide +kernel
    rw [hf] at hrefused
    cases hrefused
  · obtain ⟨a, ha⟩ := hmade
    rw [hfailed] at ha
    cases ha

end Settings

end CSharpStyle
