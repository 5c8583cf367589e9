import CSharpStyle.Analysis.FileAnalysis
import CSharpStyle.Proofs.Findings.Checks
import CSharpStyle.Proofs.Layout.Structure

/-!
# What rules on structure find does not depend on layout

The naming rules and the rules on implicit types, loop variables and using directives look at the structure of a file.
White space, comments and line breaks can change where they report something, and never what they report. The other
three rules ask on which line, or how close together, tokens stand.

* `Rule.readsStructure`: the rules that look at declarations and directives and not at their places.
* `Violation.content`: what a violation says apart from its place.
* `Check.content_eq`: in files with alike outlines such a rule finds the same.
* `FileAnalyzer.structure_and_findings_of_tokens`: files with alike tokens have the same structure and findings.
-/

namespace CSharpStyle

/-- The rule looks at names, types and directives, and not at the places where they stand. -/
def Rule.readsStructure (rule : Rule) : Bool :=
  rule.isNaming || [varApparentType, explicitForeachType, usingOutsideNamespace].contains rule

/-- What a violation says apart from its place. -/
def Violation.content (v : Violation) : String × Severity × String × Option String :=
  (v.rule, v.severity, v.message, v.fix)

/-- Related lists are filtered and mapped alike. -/
theorem map_filter_eq_of_forall₂ {α β γ : Type} {R : α → β → Prop} {xs : List α} {ys : List β}
    (h : List.Forall₂ R xs ys) {p : α → Bool} {q : β → Bool} {f : α → γ} {g : β → γ}
    (hpq : ∀ {a : α} {b : β}, R a b → p a = q b) (hfg : ∀ {a : α} {b : β}, R a b → f a = g b) :
    (xs.filter p).map f = (ys.filter q).map g := by
  induction h with
  | nil => rfl
  | @cons a b xs ys hab _ ih =>
    rw [List.filter_cons, List.filter_cons, ← hpq hab]
    by_cases hp : p a
    · rw [if_pos hp, if_pos hp, List.map_cons, List.map_cons, hfg hab, ih]
    · rw [if_neg hp, if_neg hp, ih]

namespace Subject

/-- Two files of which both or none was read, with alike outlines, and one table of symbols. -/
structure SameStructure (positions : Position → Position → Prop) (s t : Subject) : Prop where
  outline : Option.Rel (Outline.Alike positions) s.outline t.outline
  symbols : s.symbols = t.symbols

variable {positions : Position → Position → Prop} {s t : Subject}

theorem SameStructure.declarations (h : s.SameStructure positions t) :
    List.Forall₂ (fun d e : Declaration => d.Alike positions Eq e) s.declarations t.declarations := by
  rw [Subject.declarations, Subject.declarations]
  rcases rel_cases h.outline with ⟨hs, ht⟩ | ⟨o, p, hs, ht, hop⟩
  · rw [hs, ht]
    exact .nil
  · rw [hs, ht]
    exact hop.declarations.imp fun _ _ hde => hde.1

theorem SameStructure.usings (h : s.SameStructure positions t) :
    List.Forall₂ (UsingDirective.Alike positions) (s.outline.elim [] (·.usings.toList))
      (t.outline.elim [] (·.usings.toList)) := by
  rcases rel_cases h.outline with ⟨hs, ht⟩ | ⟨o, p, hs, ht, hop⟩
  · rw [hs, ht]
    exact .nil
  · rw [hs, ht]
    exact hop.usings

/-- What is said of the declarations of a role is the same if it is said of their names and details. -/
theorem SameStructure.withRole (h : s.SameStructure positions t) (role : Role) {p : Declaration → Bool}
    {f g : Declaration → String × Severity × String × Option String}
    (hp : ∀ {d e : Declaration}, d.Alike positions Eq e → p d = p e)
    (hfg : ∀ {d e : Declaration}, d.Alike positions Eq e → f d = g e) :
    ((s.withRole role).filter p).map f = ((t.withRole role).filter p).map g := by
  rw [Subject.withRole, Subject.withRole, List.filter_filter, List.filter_filter]
  refine map_filter_eq_of_forall₂ h.declarations (fun hde => ?_) hfg
  rw [hp hde, hde.role]

end Subject

namespace UsingDirective

variable {positions : Position → Position → Prop} {u v : UsingDirective}

theorem Alike.isMisplaced_eq (h : u.Alike positions v) (symbols : Symbols) :
    UsingOutsideNamespace.isMisplaced symbols u = UsingOutsideNamespace.isMisplaced symbols v := by
  rw [← h.rest]
  rfl

theorem Alike.message_eq (h : u.Alike positions v) :
    UsingOutsideNamespace.message u = UsingOutsideNamespace.message v := by
  rw [← h.rest]
  rfl

end UsingDirective

namespace Check

variable {positions : Position → Position → Prop} {s t : Subject}

/-- In files with alike outlines, a rule on structure finds the same. -/
theorem content_eq {c : Check} (hc : c.rule.readsStructure) (h : s.SameStructure positions t) :
    (c.run s).map (·.content) = (c.run t).map (·.content) := by
  cases c with
  | naming n =>
    simp only [run, NamingRule.check, List.map_map]
    refine h.withRole n.role (fun hde => by rw [hde.name]) fun hde => ?_
    simp only [Function.comp_apply, Violation.content, Subject.violation, hde.name]
  | varApparentType =>
    simp only [run, VarApparentType.check, List.map_map]
    refine h.withRole .localVariable (fun hde => ?_) fun hde => ?_
    · rw [VarApparentType.isHidden, VarApparentType.isHidden, hde.localDetail]
    · simp only [Function.comp_apply, Violation.content, Subject.violation, hde.name]
  | explicitForeachType =>
    simp only [run, ExplicitForeachType.check, List.map_map]
    refine h.withRole .localVariable (fun hde => ?_) fun hde => ?_
    · rw [Declaration.inForeach, Declaration.inForeach, Declaration.usesVar, Declaration.usesVar, hde.localDetail]
    · simp only [Function.comp_apply, Violation.content, Subject.violation, hde.name]
  | usingOutsideNamespace =>
    simp only [run, UsingOutsideNamespace.check, List.map_map]
    refine map_filter_eq_of_forall₂ h.usings (fun huv => ?_) fun huv => ?_
    · rw [huv.isMisplaced_eq, h.symbols]
    · simp only [Function.comp_apply, Violation.content, Subject.violation, huv.message_eq]
  | shortCircuitOperator => exact absurd hc (by decide)
  | oneStatementPerLine => exact absurd hc (by decide)
  | oneDeclarationPerLine => exact absurd hc (by decide)

end Check

/-- What the rules on structure say, in the order in which it was found. -/
def structuralContent (violations : List Violation) : List (String × Severity × String × Option String) :=
  (violations.filter fun v => ((Rule.all.filter Rule.readsStructure).map Rule.name).contains v.rule).map (·.content)

theorem Rule.contains_readsStructure (rule : Rule) :
    ((Rule.all.filter Rule.readsStructure).map Rule.name).contains rule.name = rule.readsStructure := by
  cases rule <;> decide

theorem structuralContent_append (violations violations' : List Violation) :
    structuralContent (violations ++ violations') =
      structuralContent violations ++ structuralContent violations' := by
  simp [structuralContent]

/-- A check that looks at structure has all its violations in there, and another one none. -/
theorem structuralContent_check (e : EnabledCheck) (s : Subject) :
    structuralContent (e.run s) =
      if e.check.rule.readsStructure then (e.run s).map (·.content) else [] := by
  have hrule : ∀ v ∈ e.run s,
      ((Rule.all.filter Rule.readsStructure).map Rule.name).contains v.rule = e.check.rule.readsStructure := by
    intro v hv
    rw [EnabledCheck.rule_of_mem_run hv, Rule.contains_readsStructure]
  by_cases hc : e.check.rule.readsStructure
  · rw [if_pos hc, structuralContent, List.filter_eq_self.mpr fun v hv => (hrule v hv).trans hc]
  · rw [if_neg hc, structuralContent, List.filter_eq_nil_iff.mpr fun v hv => by rwa [hrule v hv]]
    rfl

/-- In files with alike outlines, a check on structure finds the same with its severity. -/
theorem EnabledCheck.content_eq {positions : Position → Position → Prop} {s t : Subject} {e : EnabledCheck}
    (he : e.check.rule.readsStructure) (h : s.SameStructure positions t) :
    (e.run s).map (·.content) = (e.run t).map (·.content) := by
  have hread : s.outline.isSome = t.outline.isSome := by
    rcases rel_cases h.outline with ⟨hs, ht⟩ | ⟨o, p, hs, ht, -⟩ <;> rw [hs, ht]
    rfl
  rw [EnabledCheck.run, EnabledCheck.run, ← hread]
  by_cases hrun : s.outline.isSome || !e.check.rule.needsOutline
  · rw [if_pos hrun, if_pos hrun, List.map_map, List.map_map]
    have hcontent := congrArg (List.map fun content => (content.1, e.severity, content.2.2.1, content.2.2.2))
      (Check.content_eq he h)
    rwa [List.map_map, List.map_map] at hcontent
  · rw [if_neg hrun, if_neg hrun]

/-- The rules on structure of a rule set find the same in files with alike outlines. -/
theorem RuleSet.structuralContent_run {positions : Position → Position → Prop} {s t : Subject}
    (h : s.SameStructure positions t) (set : RuleSet) :
    structuralContent (set.run s) = structuralContent (set.run t) := by
  induction set with
  | nil => rfl
  | cons e set ih =>
    rw [run_cons, run_cons, structuralContent_append, structuralContent_append, ih, structuralContent_check,
      structuralContent_check]
    by_cases he : e.check.rule.readsStructure
    · rw [if_pos he, if_pos he, EnabledCheck.content_eq he h]
    · rw [if_neg he, if_neg he]

/-- Layout and comments influence neither structure nor what is found on it: files with alike tokens have alike
units, and in sources without malformed tokens that have alike tokens the rules on structure find the same, whatever
rules are run and whatever is known of the project. -/
theorem FileAnalyzer.structure_and_findings_of_tokens :
    (∀ {tokens tokens' : List Token}, List.Forall₂ Token.Alike tokens tokens' →
      (CompilationUnit.ofTokens tokens).Alike (Position.SameToken tokens tokens') (.ofTokens tokens')) ∧
    ∀ {source source' : String}, (TokenStream.ofSource source).errors = [] →
      (TokenStream.ofSource source').errors = [] →
      List.Forall₂ Token.Alike (TokenStream.ofSource source).significant (TokenStream.ofSource source').significant →
      ∀ (a : FileAnalyzer) (file file' : Path),
        structuralContent (a.report file source).violations = structuralContent (a.report file' source').violations := by
  constructor
  · exact CompilationUnit.alike_of_tokens
  · intro source source' herrors herrors' halike a file file'
    apply RuleSet.structuralContent_run
    constructor
    · simp only [Subject.ofStream, unit?, herrors, herrors', List.isEmpty_nil, ↓reduceIte, Option.map_some]
      exact .some (CompilationUnit.alike_of_tokens halike).outline
    · rfl

/-- A class written on one line, and written over several lines with a comment: the loop variable is reported in both
at different places. -/
theorem FileAnalyzer.structure_and_findings_of_class_over_lines :
    let oneLine := "class c \x7b void M() \x7b foreach (var x in xs) \x7b \x7d \x7d \x7d"
    let overLines := "class c // loops\n\x7b\n  void M()\n  \x7b\n    foreach (var x in xs) \x7b \x7d\n  \x7d\n\x7d\n"
    let a : FileAnalyzer := ⟨RuleSet.ofChecks [.explicitForeachType], .unknown⟩
    (CompilationUnit.ofTokens (TokenStream.ofSource oneLine).significant).Alike
      (Position.SameToken (TokenStream.ofSource oneLine).significant (TokenStream.ofSource overLines).significant)
      (.ofTokens (TokenStream.ofSource overLines).significant) ∧
    structuralContent (a.report ⟨"a.cs"⟩ oneLine).violations =
      structuralContent (a.report ⟨"b.cs"⟩ overLines).violations ∧
    (a.report ⟨"a.cs"⟩ oneLine).violations.map (fun v => (v.line, v.column)) = [(1, 35)] ∧
    (a.report ⟨"b.cs"⟩ overLines).violations.map (fun v => (v.line, v.column)) = [(5, 18)] := by
  intro oneLine overLines a
  have halike : List.Forall₂ Token.Alike (TokenStream.ofSource oneLine).significant
      (TokenStream.ofSource overLines).significant := Token.forall₂_alike_iff.mpr (by decide +kernel)
  refine ⟨FileAnalyzer.structure_and_findings_of_tokens.1 halike, ?_, by decide +kernel, by decide +kernel⟩
  exact FileAnalyzer.structure_and_findings_of_tokens.2 (by decide +kernel) (by decide +kernel) halike a ⟨"a.cs"⟩
    ⟨"b.cs"⟩

end CSharpStyle
