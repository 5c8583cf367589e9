import CSharpStyle.Proofs.Settings.FingerprintStream
import Mathlib.Data.List.Basic

/-!
# What the fingerprint leaves out

The fingerprint covers all that settings can change in what is found in a file. It does not cover what is known of the
project: a table of symbols can clear using directives inside namespaces, and only that rule asks it.

* `Analyzer.ofSettings_eq_ok`: what an analyzer takes from its settings.
* `Check.run_symbols`: the other checks do not depend on symbols.
* `Analyzer.analyzeSource_eq`: analyzers with the same fingerprint stream find the same in a file, if their tables clear
  the same of its directives.
-/

namespace CSharpStyle

variable {patterns : PatternReader}

theorem Check.rule_of_ofRule {rule : Rule} {pattern : Option String} {check : Check}
    (h : ofRule rule pattern patterns = .ok check) : check.rule = rule := by
  cases hnaming : rule.isNaming with
  | true =>
    rw [ofRule_of_isNaming hnaming, NamingRule.make] at h
    split at h
    · simp only at h
      split at h <;> cases h
      rfl
    · cases h
  | false => cases rule <;> first | (cases h; rfl) | cases hnaming

/-- The rules of a rule set are those that were selected. -/
theorem RuleSet.rules_of_ofSelections {selections : List Selection} {set : RuleSet}
    (h : ofSelections selections patterns = .ok set) : set.rules = selections.map (·.rule) := by
  rw [ofSelections] at h
  induction selections generalizing set with
  | nil =>
    cases h
    rfl
  | cons c selections ih =>
    rw [List.mapM_cons] at h
    cases hcheck : Check.ofRule c.rule c.pattern patterns with
    | error e =>
      rw [hcheck] at h
      cases h
    | ok check =>
      rw [hcheck] at h
      cases hrest : selections.mapM fun c : Selection =>
          (Check.ofRule c.rule c.pattern patterns).map fun check => (⟨check, c.severity⟩ : EnabledCheck) with
      | error e =>
        rw [hrest] at h
        cases h
      | ok checks =>
        rw [hrest] at h
        cases h
        have hrule : check.rule = c.rule := Check.rule_of_ofRule hcheck
        have hrules : checks.map (·.check.rule) = selections.map (·.rule) := ih hrest
        simp only [RuleSet.rules, List.map_cons, hrule, hrules]

namespace Analyzer

variable {s : Settings} {symbols : Symbols} {a : Analyzer}

/-- An analyzer consists of its settings, the filter and the rules that they describe, and the given symbols. -/
theorem ofSettings_eq_ok (h : ofSettings s symbols patterns = .ok a) :
    a.settings = s ∧ PathFilter.ofPatterns s.paths.patterns s.paths.ignoreFile = .ok a.filter ∧
      RuleSet.ofSelections s.selections patterns = .ok a.files.rules ∧ a.files.symbols = symbols := by
  rw [ofSettings] at h
  cases hvalid : s.validate patterns with
  | error e =>
    rw [hvalid] at h
    cases h
  | ok u =>
    cases hfilter : PathFilter.ofPatterns s.paths.patterns s.paths.ignoreFile with
    | error e =>
      rw [hvalid, hfilter] at h
      cases h
    | ok filter =>
      cases hrules : RuleSet.ofSelections s.selections patterns with
      | error e =>
        rw [hvalid, hfilter, hrules] at h
        cases h
      | ok rules =>
        rw [hvalid, hfilter, hrules] at h
        cases h
        exact ⟨rfl, rfl, rfl, rfl⟩

theorem fingerprint_eq (h : ofSettings s symbols patterns = .ok a) : a.fingerprint = s.fingerprint := by
  rw [fingerprint, (ofSettings_eq_ok h).1]

/-- The rules that an analyzer runs are enabled in its settings. -/
theorem isEnabled_of_mem (h : ofSettings s symbols patterns = .ok a) {e : EnabledCheck} (he : e ∈ a.files.rules) :
    s.isEnabled e.check.rule := by
  have hmem : e.check.rule ∈ a.files.rules.rules := List.mem_map.mpr ⟨e, he, rfl⟩
  rw [RuleSet.rules_of_ofSelections (ofSettings_eq_ok h).2.2.1] at hmem
  obtain ⟨selection, hselection, hrule⟩ := List.mem_map.mp hmem
  obtain ⟨rule, hfilter, rfl⟩ := List.mem_map.mp hselection
  rw [← hrule]
  exact (List.mem_filter.mp hfilter).2

/-- Analyzers with the same fingerprint stream run the same rules. -/
theorem rules_eq_of_stream_eq {s' : Settings} {symbols' : Symbols} {a' : Analyzer}
    (h : ofSettings s symbols patterns = .ok a) (h' : ofSettings s' symbols' patterns = .ok a')
    (hstream : Fingerprint.stream s = Fingerprint.stream s') : a.files.rules = a'.files.rules := by
  have hrules := (ofSettings_eq_ok h).2.2.1
  rw [(Fingerprint.effective_of_stream_eq hstream).2.2] at hrules
  exact Except.ok.inj (hrules.symm.trans (ofSettings_eq_ok h').2.2.1)

/-- With the same symbols, they analyze files in the same way. -/
theorem files_eq_of_stream_eq {s' : Settings} {a' : Analyzer} (h : ofSettings s symbols patterns = .ok a)
    (h' : ofSettings s' symbols patterns = .ok a') (hstream : Fingerprint.stream s = Fingerprint.stream s') :
    a.files = a'.files := by
  have hsymbols : a.files.symbols = a'.files.symbols :=
    (ofSettings_eq_ok h).2.2.2.trans (ofSettings_eq_ok h').2.2.2.symm
  calc a.files = ⟨a.files.rules, a.files.symbols⟩ := rfl
    _ = ⟨a'.files.rules, a'.files.symbols⟩ := by rw [rules_eq_of_stream_eq h h' hstream, hsymbols]

end Analyzer

/-! ### Symbols -/

/-- The using directives inside the namespaces of a source text, if its structure is read. -/
def nestedUsings (source : String) : List UsingDirective :=
  (FileAnalyzer.unit? (TokenStream.ofSource source)).elim [] fun unit =>
    unit.outline.usings.toList.filter (·.insideNamespace)

/-- A table says that a directive means the same outside of its namespace. -/
def Symbols.Clears (symbols : Symbols) (u : UsingDirective) : Prop := symbols u.target u.namespaceName = some false

theorem UsingOutsideNamespace.isMisplaced_congr {symbols symbols' : Symbols} {u : UsingDirective}
    (h : u.insideNamespace → (symbols.Clears u ↔ symbols'.Clears u)) :
    isMisplaced symbols u = isMisplaced symbols' u := by
  rw [isMisplaced, isMisplaced]
  cases hinside : u.insideNamespace with
  | false => rfl
  | true =>
    rw [Bool.true_and, Bool.true_and, Bool.eq_iff_iff, bne_iff_ne, bne_iff_ne]
    exact not_congr (h hinside)

/-- Only one rule asks the table. -/
theorem Check.run_symbols (check : Check) (s : Subject) {symbols : Symbols}
    (h : check.rule = .usingOutsideNamespace → ∀ u ∈ s.outline.elim [] (·.usings.toList),
      u.insideNamespace → (s.symbols.Clears u ↔ symbols.Clears u)) :
    check.run { s with symbols } = check.run s := by
  cases check with
  | usingOutsideNamespace =>
    rw [run, run, UsingOutsideNamespace.check, UsingOutsideNamespace.check]
    refine congrArg _ (List.filter_congr fun u hu => ?_)
    exact (UsingOutsideNamespace.isMisplaced_congr (h rfl u hu)).symm
  | _ => rfl

theorem RuleSet.run_symbols (set : RuleSet) (s : Subject) (symbols : Symbols)
    (h : ∀ e ∈ set, e.check.rule = .usingOutsideNamespace → ∀ u ∈ s.outline.elim [] (·.usings.toList),
      u.insideNamespace → (s.symbols.Clears u ↔ symbols.Clears u)) :
    set.run { s with symbols } = set.run s := by
  rw [run, run]
  refine List.flatMap_congr fun e he => ?_
  rw [e.check.run_symbols s (h e (List.mem_filter.mp he).1)]

/-- The report of a file depends on the table only through the directives inside its namespaces. -/
theorem FileAnalyzer.report_symbols (a : FileAnalyzer) {symbols : Symbols} {source : String}
    (h : ∀ e ∈ a.rules, e.check.rule = .usingOutsideNamespace →
      ∀ u ∈ nestedUsings source, (a.symbols.Clears u ↔ symbols.Clears u)) (file : Path) :
    report ⟨a.rules, symbols⟩ file source = a.report file source := by
  rw [nestedUsings] at h
  rw [report, report]
  generalize unit? (TokenStream.ofSource source) = unit at h ⊢
  have hrun := a.rules.run_symbols
    (Subject.ofStream file source (TokenStream.ofSource source) (unit.map (·.outline)) a.symbols) symbols
    fun e he hrule u hu hinside => h e he hrule u (by
      cases unit with
      | none => cases hu
      | some unit => exact List.mem_filter.mpr ⟨hu, hinside⟩)
  exact congrArg (fun violations => (⟨violations, _⟩ : FileReport)) hrun

namespace Analyzer

/-- Analyzers with the same fingerprint stream find the same in a source text, if the rule on directives inside
namespaces is disabled or their tables clear the same of them. -/
theorem analyzeSource_eq {s s' : Settings} {symbols symbols' : Symbols} {a a' : Analyzer}
    (h : ofSettings s symbols patterns = .ok a) (h' : ofSettings s' symbols' patterns = .ok a')
    (hstream : Fingerprint.stream s = Fingerprint.stream s') {source : String}
    (hclears : s.isEnabled .usingOutsideNamespace →
      ∀ u ∈ nestedUsings source, (symbols.Clears u ↔ symbols'.Clears u))
    (interrupted : Interruption) (file : Path) :
    a.analyzeSource interrupted file source = a'.analyzeSource interrupted file source := by
  have hfiles : a'.files = ⟨a.files.rules, symbols'⟩ := by
    rw [rules_eq_of_stream_eq h h' hstream, ← (ofSettings_eq_ok h').2.2.2]
  have hreport : a.files.report file source = a'.files.report file source := by
    rw [hfiles]
    refine (a.files.report_symbols (fun e he hrule u hu => ?_) file).symm
    rw [(ofSettings_eq_ok h).2.2.2]
    exact hclears (hrule ▸ isEnabled_of_mem h he) u hu
  rw [analyzeSource, analyzeSource, FileAnalyzer.analyze, FileAnalyzer.analyze, hreport]

/-- A severity that is spelled out and a table that clears a directive of another file change nothing. -/
theorem analyzeSource_other_directive :
    let s' : Settings := { rules := [("UsingOutsideNamespace", { severity := some .warning })] }
    let symbols' : Symbols := fun target _ => if target = "Missing" then some false else none
    let source := "namespace N { using System; }"
    Fingerprint.stream {} = Fingerprint.stream s' ∧
      ∃ a a', ofSettings {} .unknown = .ok a ∧ ofSettings s' symbols' = .ok a' ∧
        (({} : Settings).isEnabled .usingOutsideNamespace →
          ∀ u ∈ nestedUsings source, (Symbols.unknown.Clears u ↔ symbols'.Clears u)) ∧
        ∀ interrupted file, a.analyzeSource interrupted file source = a'.analyzeSource interrupted file source := by
  intro s' symbols' source
  have hstream : Fingerprint.stream {} = Fingerprint.stream s' := by decide +kernel
  have hvalid : ({} : Settings).validate = .ok () := Except.eq_ok_of_isOk (by decide +kernel)
  have hvalid' : s'.validate = .ok () := Except.eq_ok_of_isOk (by decide +kernel)
  obtain ⟨a, ha⟩ := exists_ofSettings hvalid (by decide) .unknown
  obtain ⟨a', ha'⟩ := exists_ofSettings hvalid' (by decide) symbols'
  have htarget : ∀ u ∈ nestedUsings source, u.target = "System" := by decide +kernel
  have hclears : ∀ u ∈ nestedUsings source, (Symbols.unknown.Clears u ↔ symbols'.Clears u) := by
    intro u hu
    rw [Symbols.Clears, Symbols.Clears, htarget u hu]
    exact Iff.rfl
  exact ⟨hstream, a, a', ha, ha', fun _ => hclears, analyzeSource_eq ha ha' hstream fun _ => hclears⟩

/-- With the same settings, a directive is reported or not as the table says. -/
theorem analyzeSource_cleared_directive :
    let symbols' : Symbols := fun target _ => if target = "System" then some false else none
    let source := "namespace N { using System; }"
    ∃ a a', ofSettings {} .unknown = .ok a ∧ ofSettings {} symbols' = .ok a' ∧
      Fingerprint.stream a.settings = Fingerprint.stream a'.settings ∧ a.fingerprint = a'.fingerprint ∧
      a.analyzeSource .never ⟨"Test.cs"⟩ source ≠ a'.analyzeSource .never ⟨"Test.cs"⟩ source := by
  intro symbols' source
  have hvalid : ({} : Settings).validate = .ok () := Except.eq_ok_of_isOk (by decide +kernel)
  obtain ⟨a, ha⟩ := exists_ofSettings hvalid (by decide) .unknown
  obtain ⟨a', ha'⟩ := exists_ofSettings hvalid (by decide) symbols'
  obtain ⟨hsettings, -, hrules, hsymbols⟩ := ofSettings_eq_ok ha
  obtain ⟨hsettings', -, -, hsymbols'⟩ := ofSettings_eq_ok ha'
  refine ⟨a, a', ha, ha', by rw [hsettings, hsettings'], by rw [fingerprint_eq ha, fingerprint_eq ha'], fun heq => ?_⟩
  have hcounts : (RuleSet.ofSelections ({} : Settings).selections).toOption.map (fun rules =>
      ((FileAnalyzer.report ⟨rules, .unknown⟩ ⟨"Test.cs"⟩ source).violations.length,
        (FileAnalyzer.report ⟨rules, symbols'⟩ ⟨"Test.cs"⟩ source).violations.length)) = some (1, 0) := by
    decide +kernel
  rw [hrules] at hcounts
  obtain ⟨hone, hzero⟩ := Prod.mk.inj (Option.some.inj hcounts)
  have hreports : a.files.report ⟨"Test.cs"⟩ source = a'.files.report ⟨"Test.cs"⟩ source := Option.some.inj heq
  have hfiles' : a'.files = ⟨a.files.rules, symbols'⟩ := by rw [rules_eq_of_stream_eq ha ha' rfl, ← hsymbols']
  have hfiles : a.files = ⟨a.files.rules, .unknown⟩ := by rw [← hsymbols]
  rw [hfiles', hfiles] at hreports
  rw [hreports] at hone
  exact absurd (hone.symm.trans hzero) (by decide)

end Analyzer

end CSharpStyle
