import CSharpStyle.Proofs.Findings.Checks
import CSharpStyle.Proofs.Findings.Order
import CSharpStyle.Proofs.Settings.Symbols
import Mathlib.Data.List.Perm.Basic

/-!
# Rules do not interact

Every check looks at the file alone. The order in which rules are run cannot be seen in sorted findings, and settings
of one rule do not change what is found of another.

* `RuleSet.forall₂_ofSelections`: a rule set holds one check for each selection.
* `RuleSet.sortBy_run_perm`: sorted findings do not depend on the order of the checks.
* `Settings.filter_rule_run`: what is found of an enabled rule depends on its own settings only.
* `Analyzer.rules_independent`: both together, for selections and for analyzers.
-/

namespace CSharpStyle

theorem Except.mapM_eq_ok_iff {ε α β : Type} {read : α → Except ε β} {items : List α} {values : List β} :
    items.mapM read = .ok values ↔ List.Forall₂ (fun a b => read a = .ok b) items values := by
  induction items generalizing values with
  | nil =>
    rw [List.forall₂_nil_left_iff]
    exact ⟨fun h => (Except.ok.inj h).symm, fun h => h ▸ rfl⟩
  | cons a items ih =>
    rw [List.mapM_cons, List.forall₂_cons_left_iff]
    cases hread : read a with
    | error e => exact iff_of_false (by rintro ⟨⟩) (by rintro ⟨_, _, ⟨⟩, -⟩)
    | ok b =>
      cases hitems : items.mapM read with
      | error e =>
        refine iff_of_false (by rintro ⟨⟩) ?_
        rintro ⟨_, rest, -, hrest, -⟩
        rw [← ih, hitems] at hrest
        cases hrest
      | ok rest =>
        constructor
        · intro h
          cases h
          exact ⟨b, rest, rfl, ih.mp hitems, rfl⟩
        · rintro ⟨c, rest', hc, hrest, rfl⟩
          cases hc
          rw [← ih, hitems] at hrest
          cases hrest
          rfl

/-- The check that a selection asks for. -/
def Selection.prepare (patterns : PatternReader) (c : Selection) : Except Failure EnabledCheck :=
  (Check.ofRule c.rule c.pattern patterns).map fun check => ⟨check, c.severity⟩

variable {patterns : PatternReader}

theorem Selection.rule_of_prepare {c : Selection} {e : EnabledCheck} (h : c.prepare patterns = .ok e) :
    e.check.rule = c.rule := by
  rw [prepare] at h
  cases hcheck : Check.ofRule c.rule c.pattern patterns with
  | error failure =>
    rw [hcheck] at h
    cases h
  | ok check =>
    rw [hcheck] at h
    cases h
    exact Check.rule_of_ofRule hcheck

namespace RuleSet

variable {selections selections' : List Selection} {set set' : RuleSet}

/-- A rule set holds one check for each selection. -/
theorem forall₂_ofSelections :
    ofSelections selections patterns = .ok set ↔ List.Forall₂ (fun c e => c.prepare patterns = .ok e) selections set :=
  Except.mapM_eq_ok_iff

/-- The check of a selection is in the rule set. -/
theorem exists_check (h : ofSelections selections patterns = .ok set) {c : Selection} (hc : c ∈ selections) :
    ∃ e ∈ set, c.prepare patterns = .ok e := by
  have hprepared := forall₂_ofSelections.mp h
  clear h
  induction hprepared with
  | nil => cases hc
  | cons he _ ih =>
    rcases List.mem_cons.mp hc with rfl | hrest
    · exact ⟨_, List.mem_cons_self .., he⟩
    · obtain ⟨e, hmem, heq⟩ := ih hrest
      exact ⟨e, List.mem_cons_of_mem _ hmem, heq⟩

/-- No check stands twice if no rule is selected twice. -/
theorem nodup_of_ofSelections (h : ofSelections selections patterns = .ok set)
    (hdistinct : (selections.map (·.rule)).Nodup) :
    (set.map (·.check.rule.name)).Nodup := by
  have hrules : set.map (·.check.rule.name) = (selections.map (·.rule)).map Rule.name := by
    rw [← rules_of_ofSelections h, rules, List.map_map]
    rfl
  rw [hrules]
  exact hdistinct.map fun _ _ => Rule.name_injective

theorem exists_perm_of_ofSelections (h : ofSelections selections patterns = .ok set)
    (hperm : selections.Perm selections') :
    ∃ set', ofSelections selections' patterns = .ok set' ∧ set.Perm set' := by
  obtain ⟨set', hset', hperm'⟩ := List.perm_comp_forall₂ hperm.symm (forall₂_ofSelections.mp h)
  exact ⟨set', forall₂_ofSelections.mpr hset', hperm'.symm⟩

/-- The checks of a rule set can be run in any order, if no rule stands twice in it. -/
theorem sortBy_run_perm (hdistinct : (set.map (·.check.rule.name)).Nodup) (hperm : set.Perm set') (s : Subject) :
    sortBy Violation.order (set.run s) = sortBy Violation.order (set'.run s) := by
  refine sortBy_eq_of_filter fun v => ?_
  -- Violations that are not told apart from `v` are of its rule, and those were found by one check.
  have hrule (violations : List Violation) : violations.filter (v.order · == .eq) =
      (violations.filter (·.rule == v.rule)).filter (v.order · == .eq) := by
    rw [List.filter_filter]
    refine List.filter_congr fun w _ => ?_
    by_cases htied : v.order w = .eq
    · rw [htied, Violation.rule_of_order_eq htied, beq_self_eq_true, beq_self_eq_true, Bool.and_self]
    · rw [beq_false_of_ne htied, Bool.false_and]
  rw [hrule, hrule (set'.run s), filter_rule_run_perm hdistinct hperm]

end RuleSet

namespace Settings

variable {s s' : Settings} {set set' : RuleSet} {rule : Rule}

theorem mem_selections (h : s.isEnabled rule) : ⟨rule, s.severity rule, s.pattern? rule⟩ ∈ s.selections := by
  have hall : rule ∈ Rule.all := by cases rule <;> decide
  exact List.mem_map.mpr ⟨rule, List.mem_filter.mpr ⟨hall, h⟩, rfl⟩

theorem nodup_selections (s : Settings) : (s.selections.map (·.rule)).Nodup := by
  have hall : Rule.all.Nodup := by decide
  have hrules : s.selections.map (·.rule) = Rule.all.filter s.isEnabled := by
    rw [selections, List.map_map]
    exact List.map_id _
  rw [hrules]
  exact hall.filter _

/-- What is found of an enabled rule is what the check finds that its settings ask for. -/
theorem filter_rule_run (hset : RuleSet.ofSelections s.selections patterns = .ok set) (h : s.isEnabled rule) :
    ∃ e, Selection.prepare patterns ⟨rule, s.severity rule, s.pattern? rule⟩ = .ok e ∧
      ∀ subject, (set.run subject).filter (·.rule == rule.name) = e.run subject := by
  obtain ⟨e, he, hprepare⟩ := RuleSet.exists_check hset (mem_selections h)
  have hname : e.check.rule = rule := Selection.rule_of_prepare hprepare
  refine ⟨e, hprepare, fun subject => ?_⟩
  rw [← hname]
  exact RuleSet.filter_rule_run (RuleSet.nodup_of_ofSelections hset s.nodup_selections) he subject

end Settings

namespace Analyzer

/-- An analyzer reports what its rules find, or nothing when it is interrupted. -/
theorem analyzeSource_eq_map {s : Settings} {symbols : Symbols} {a : Analyzer}
    (h : ofSettings s symbols patterns = .ok a) (interrupted : Interruption) (file : Path) (source : String) :
    a.analyzeSource interrupted file source =
      if interrupted 0 || interrupted 1 || interrupted 2 then none
      else some (FileAnalyzer.report ⟨a.files.rules, symbols⟩ file source) := by
  rw [analyzeSource, FileAnalyzer.analyze, ← (ofSettings_eq_ok h).2.2.2]

/-- Rules do not interact. In whatever order distinct rules are selected, the sorted findings are the same; and what
an analyzer finds of an enabled rule, as well as its diagnostics, is the same for all settings that give this rule the
same severity and pattern. -/
theorem rules_independent :
    (∀ {selections selections' : List Selection} {set : RuleSet}, (selections.map (·.rule)).Nodup →
      selections.Perm selections' → RuleSet.ofSelections selections patterns = .ok set →
      ∃ set', RuleSet.ofSelections selections' patterns = .ok set' ∧
        ∀ s : Subject, sortBy Violation.order (set.run s) = sortBy Violation.order (set'.run s)) ∧
    ∀ {s s' : Settings} {symbols : Symbols} {a a' : Analyzer}, ofSettings s symbols patterns = .ok a →
      ofSettings s' symbols patterns = .ok a' → ∀ (interrupted : Interruption) (file : Path) (source : String),
        (a.analyzeSource interrupted file source).map (·.diagnostics) =
          (a'.analyzeSource interrupted file source).map (·.diagnostics) ∧
        ∀ rule : Rule, s.isEnabled rule → s'.isEnabled rule → s.severity rule = s'.severity rule →
          s.pattern? rule = s'.pattern? rule →
          (a.analyzeSource interrupted file source).map (·.violations.filter (·.rule == rule.name)) =
            (a'.analyzeSource interrupted file source).map (·.violations.filter (·.rule == rule.name)) := by
  constructor
  · intro selections selections' set hdistinct hperm hset
    obtain ⟨set', hset', hsets⟩ := RuleSet.exists_perm_of_ofSelections hset hperm
    exact ⟨set', hset', RuleSet.sortBy_run_perm (RuleSet.nodup_of_ofSelections hset hdistinct) hsets⟩
  · intro s s' symbols a a' h h' interrupted file source
    rw [analyzeSource_eq_map h, analyzeSource_eq_map h']
    by_cases hinterrupted : interrupted 0 || interrupted 1 || interrupted 2
    · simp only [hinterrupted, ↓reduceIte, Option.map_none, implies_true, and_self]
    · rw [if_neg hinterrupted, if_neg hinterrupted]
      refine ⟨rfl, fun rule henabled henabled' hseverity hpattern => ?_⟩
      obtain ⟨e, he, hrun⟩ := Settings.filter_rule_run (ofSettings_eq_ok h).2.2.1 henabled
      obtain ⟨e', he', hrun'⟩ := Settings.filter_rule_run (ofSettings_eq_ok h').2.2.1 henabled'
      have hchecks : e = e' := by
        rw [hseverity, hpattern, he'] at he
        exact (Except.ok.inj he).symm
      simp only [Option.map_some, FileAnalyzer.report, hrun, hrun', hchecks]

/-- Two rules in both orders, and settings with one of them disabled. -/
theorem rules_independent_two_rules :
    let fields : Selection := ⟨.camelCaseUnderscoreField, .warning, none⟩
    let declarations : Selection := ⟨.oneDeclarationPerLine, .info, none⟩
    let s' : Settings := { rules := [("OneDeclarationPerLine", { isEnabled := false })] }
    let source := "class C { private int a, b; }"
    (∃ set set', RuleSet.ofSelections [fields, declarations] = .ok set ∧
      RuleSet.ofSelections [declarations, fields] = .ok set' ∧
      ∀ s : Subject, sortBy Violation.order (set.run s) = sortBy Violation.order (set'.run s)) ∧
    ∃ a a', ofSettings {} .unknown = .ok a ∧ ofSettings s' .unknown = .ok a' ∧
      (a.analyzeSource .never ⟨"C.cs"⟩ source).map (·.diagnostics) =
        (a'.analyzeSource .never ⟨"C.cs"⟩ source).map (·.diagnostics) ∧
      (a.analyzeSource .never ⟨"C.cs"⟩ source).map (·.violations.filter (·.rule == "CamelCaseUnderscoreField")) =
        (a'.analyzeSource .never ⟨"C.cs"⟩ source).map
          (·.violations.filter (·.rule == "CamelCaseUnderscoreField")) := by
  intro fields declarations s' source
  constructor
  · have hprepared : (RuleSet.ofSelections [fields, declarations]).toOption.isSome := by decide +kernel
    obtain ⟨set, hset⟩ := Option.isSome_iff_exists.mp hprepared
    have hset : RuleSet.ofSelections [fields, declarations] = .ok set := Except.eq_ok_of_toOption hset
    obtain ⟨set', hset', hsorted⟩ := rules_independent.1 (by decide) (.swap declarations fields []) hset
    exact ⟨set, set', hset, hset', hsorted⟩
  · have hvalid : ({} : Settings).validate = .ok () := Except.eq_ok_of_isOk (by decide +kernel)
    have hvalid' : s'.validate = .ok () := Except.eq_ok_of_isOk (by decide +kernel)
    obtain ⟨a, ha⟩ := exists_ofSettings hvalid (by decide) .unknown
    obtain ⟨a', ha'⟩ := exists_ofSettings hvalid' (by decide) .unknown
    obtain ⟨hdiagnostics, hrules⟩ := rules_independent.2 ha ha' .never ⟨"C.cs"⟩ source
    have hfields := hrules .camelCaseUnderscoreField (by decide +kernel) (by decide +kernel) (by decide +kernel)
      (by decide +kernel)
    exact ⟨a, a', ha, ha', hdiagnostics, hfields⟩

end Analyzer

end CSharpStyle
