import CSharpStyle.Proofs.Settings.FingerprintStream

/-!
# Settings with the same fingerprint stream

The fingerprint stream of settings is determined by their effect, and determines it: the version, the path patterns,
the name of ignore files and the rules that are selected. What is said of rules without an effect leaves no trace.

* `RuleSettings.effect`: what comes of the settings of a rule.
* `Settings.selections_eq`: the selected rules are made of the effects of the settings of all rules.
* `Fingerprint.stream_of_effect`: the stream stands for the effect, and nothing else changes it.
-/

namespace CSharpStyle

private theorem lookup_cons_eq {α : Type} (name other : String) (value : α) (entries : List (String × α)) :
    ((name, value) :: entries).lookup other = if other = name then some value else entries.lookup other := by
  rw [List.lookup_cons]
  by_cases h : other = name
  · rw [if_pos h, beq_iff_eq.mpr h]
  · rw [if_neg h, beq_eq_false_iff_ne.mpr h]

/-- Whatever was found under a name, the new value is found there, and other names keep their values. -/
theorem lookup_insertByName {α : Type} (name other : String) (value : α) (entries : List (String × α)) :
    (insertByName name value entries).lookup other = if other = name then some value else entries.lookup other := by
  induction entries with
  | nil => exact lookup_cons_eq ..
  | cons entry entries ih =>
    obtain ⟨first, old⟩ := entry
    unfold insertByName
    split
    · exact lookup_cons_eq ..
    · rename_i horder
      obtain rfl := Std.LawfulEqOrd.eq_of_compare horder
      rw [lookup_cons_eq, lookup_cons_eq]
      split <;> rfl
    · rename_i horder
      rw [lookup_cons_eq, lookup_cons_eq, ih]
      split_ifs with hfirst hname
      · subst hfirst
        subst hname
        have hself : compare other other = .eq := Std.ReflCmp.compare_self
        cases hself.symm.trans horder
      · rfl
      · rfl
      · rfl

/-- Names that are not asked for do not matter. -/
theorem lookup_filter {α : Type} {p : String → Bool} {name : String} (h : p name) (entries : List (String × α)) :
    (entries.filter fun entry => p entry.1).lookup name = entries.lookup name := by
  induction entries with
  | nil => rfl
  | cons entry entries ih =>
    obtain ⟨first, value⟩ := entry
    rw [List.filter_cons]
    split
    · rw [lookup_cons_eq, lookup_cons_eq, ih]
    · rename_i hfirst
      rw [ih, lookup_cons_eq, if_neg]
      rintro rfl
      exact hfirst h

/-- What comes of the settings of a rule, which is nothing if the rule is disabled. -/
def RuleSettings.effect (r : RuleSettings) (rule : Rule) : Option Selection :=
  if r.isEnabled then
    some ⟨rule, r.severity.getD rule.defaultSeverity, if rule.isNaming then r.pattern else none⟩
  else none

namespace Settings

variable {s : Settings}

theorem selections_eq (s : Settings) :
    s.selections = Rule.all.filterMap fun rule => (s.ruleSettings rule).effect rule := by
  unfold selections
  induction Rule.all with
  | nil => rfl
  | cons rule rules ih =>
    rw [List.filter_cons, List.filterMap_cons, RuleSettings.effect]
    by_cases h : s.isEnabled rule
    · have henabled : (s.ruleSettings rule).isEnabled = true := h
      rw [if_pos h, if_pos henabled, List.map_cons, ih]
      rfl
    · have hdisabled : ¬(s.ruleSettings rule).isEnabled = true := h
      rw [if_neg h, if_neg hdisabled, ih]

theorem selections_congr {t : Settings}
    (h : ∀ rule, (s.ruleSettings rule).effect rule = (t.ruleSettings rule).effect rule) :
    s.selections = t.selections := by
  rw [selections_eq, selections_eq, funext h]

theorem ruleSettings_changeRule (s : Settings) (rule other : Rule) (change : RuleSettings → RuleSettings) :
    (s.changeRule rule change).ruleSettings other =
      if other = rule then change (s.ruleSettings rule) else s.ruleSettings other := by
  rw [ruleSettings, changeRule, lookup_insertByName]
  by_cases h : other = rule
  · rw [if_pos h, if_pos (congrArg Rule.name h), Option.getD_some]
  · rw [if_neg h, if_neg fun hname => h (Rule.name_injective hname)]
    rfl

/-- A change of what is said of a rule selects the same rules, if the same comes of it. -/
theorem selections_changeRule {rule : Rule} {change : RuleSettings → RuleSettings}
    (h : (change (s.ruleSettings rule)).effect rule = (s.ruleSettings rule).effect rule) :
    (s.changeRule rule change).selections = s.selections := by
  refine selections_congr fun other => ?_
  rw [ruleSettings_changeRule]
  split
  · rename_i hother
    rw [hother, h]
  · rfl

/-- What is said under names that are no rules does not count. -/
theorem selections_of_filter {rules : List (String × RuleSettings)}
    (h : rules.filter (fun entry => (Rule.ofName? entry.1).isSome) =
      s.rules.filter fun entry => (Rule.ofName? entry.1).isSome) :
    { s with rules }.selections = s.selections := by
  refine selections_congr fun rule => ?_
  -- Rules are looked up by their own names, which stay.
  have hname : (Rule.ofName? rule.name).isSome := by rw [Rule.ofName?_name]; rfl
  rw [ruleSettings, ruleSettings, ← lookup_filter (p := fun name => (Rule.ofName? name).isSome) hname rules,
    ← lookup_filter (p := fun name => (Rule.ofName? name).isSome) hname s.rules, h]

end Settings

namespace Fingerprint

/-- Of the settings of rules, the stream has what is selected by them. -/
theorem stream_congr {s : Settings} {rules : List (String × RuleSettings)}
    (h : { s with rules }.selections = s.selections) : stream { s with rules } = stream s := by
  rw [stream, stream, h]

theorem stream_changeRule {s : Settings} {rule : Rule} {change : RuleSettings → RuleSettings}
    (h : (change (s.ruleSettings rule)).effect rule = (s.ruleSettings rule).effect rule) :
    stream (s.changeRule rule change) = stream s := by
  have hselections := Settings.selections_changeRule h
  exact stream_congr hselections

/-- The stream stands for the version, the path patterns, the name of ignore files and the selected rules. So it does
not change with entries under names that are no rules, with an entry or a severity that only spells out what is in
effect already, with the pattern of a rule that does not check names, or with what else is said of a disabled rule. A
pattern of a naming rule counts even if it is the built-in one, since messages tell one from the other. -/
theorem stream_of_effect (s : Settings) :
    (∀ t, stream s = stream t ↔
      s.version = t.version ∧ s.paths.patterns = t.paths.patterns ∧ s.paths.ignoreFile = t.paths.ignoreFile ∧
        s.selections = t.selections) ∧
    (∀ rules : List (String × RuleSettings),
      rules.filter (fun entry => (Rule.ofName? entry.1).isSome) =
        s.rules.filter (fun entry => (Rule.ofName? entry.1).isSome) →
      stream { s with rules } = stream s) ∧
    (∀ rule, stream (s.changeRule rule id) = stream s ∧
      stream (s.setSeverity rule (s.severity rule)) = stream s) ∧
    (∀ rule pattern, rule.isNaming = false → stream (s.setPattern rule pattern) = stream s) ∧
    (∀ rule (r : RuleSettings), s.isEnabled rule = false → r.isEnabled = false →
      stream (s.changeRule rule fun _ => r) = stream s) := by
  refine ⟨fun t => ⟨fun h => ?_, fun ⟨hversion, hpatterns, hignore, hselections⟩ => ?_⟩, fun rules h => ?_,
    fun rule => ?_, fun rule pattern h => ?_, fun rule r h hr => ?_⟩
  · obtain ⟨hversion, hpaths, hselections⟩ := effective_of_stream_eq h
    exact ⟨hversion, congrArg (·.patterns) hpaths, congrArg (·.ignoreFile) hpaths, hselections⟩
  · rw [stream, stream, hversion, hpatterns, hignore, hselections]
  · exact stream_congr (Settings.selections_of_filter h)
  · exact ⟨stream_changeRule rfl, stream_changeRule rfl⟩
  · refine stream_changeRule ?_
    simp only [RuleSettings.effect, h, Bool.false_eq_true, ↓reduceIte]
  · refine stream_changeRule ?_
    have hdisabled : (s.ruleSettings rule).isEnabled = false := h
    rw [RuleSettings.effect, RuleSettings.effect, hr, hdisabled]
    rfl

/-- An unknown rule, an entry and a severity that say what holds anyway, a pattern of a rule that takes none and a
severity of a disabled rule leave no trace, but that a rule is disabled does. -/
theorem stream_of_disabled_rule :
    let s : Settings := { rules := [("VarApparentType", { isEnabled := false })] }
    stream { s with rules := ("NoSuchRule", {}) :: s.rules } = stream s ∧
      stream (s.changeRule .pascalCaseType id) = stream s ∧
      stream (s.setSeverity .pascalCaseType .warning) = stream s ∧
      stream (s.setPattern .oneStatementPerLine "x") = stream s ∧
      stream (s.changeRule .varApparentType fun _ => { isEnabled := false, severity := some .error }) = stream s ∧
      stream s ≠ stream {} := by
  intro s
  obtain ⟨hiff, hunknown, hdefault, hpattern, hdisabled⟩ := stream_of_effect s
  have hselections : s.selections ≠ ({} : Settings).selections := by decide
  obtain ⟨hentry, hseverity⟩ := hdefault .pascalCaseType
  exact ⟨hunknown _ (by decide), hentry, hseverity, hpattern .oneStatementPerLine "x" rfl,
    hdisabled .varApparentType _ rfl rfl, fun h => hselections ((hiff {}).mp h).2.2.2⟩

end Fingerprint

end CSharpStyle
