import CSharpStyle.Proofs.Findings.Independence
import CSharpStyle.Proofs.Lexical.Places
import CSharpStyle.Proofs.Recording.CompilationUnit

/-!
# Findings are reported once

The names and directives of an outline are tokens of the file, none of them twice, and no two tokens are shown at the
same place. A check goes over names, directives or tokens once and reports each at its place, so that no two
violations of a rule are reported at the same place.

* `CompilationUnit.exists_unique_token`: a declaration is put down to one token.
* `Subject.Separate`: what rules look at stands at places of its own.
* `Check.nodup_places`, `RuleSet.nodup_run`: so do the findings of a check, and those of a rule set rule by rule.
* `Analyzer.recorded_and_reported_once`: both for every source and every analyzer.
-/

namespace CSharpStyle

/-! ### Names of a source -/

/-- What was read from a file stands at places of its own. -/
structure Outline.Separate (o : Outline) : Prop where
  declarations : (o.declarations.toList.map (·.position.place)).Nodup
  usings : (o.usings.toList.map (·.position.place)).Nodup

/-- Names that are tokens at places of their own stand at places of their own. -/
theorem Outline.Names.separate {o : Outline} {named firsts tokens : List Token} (h : o.Names named firsts)
    (hnames : (named ++ firsts).Subperm tokens) (hplaces : (tokens.map (·.start.place)).Nodup) : o.Separate := by
  obtain ⟨names, hperm, hsublist⟩ := hnames
  have hnodup : ((named ++ firsts).map (·.start.place)).Nodup :=
    (hperm.map _).nodup_iff.mp (hplaces.sublist (hsublist.map _))
  rw [List.map_append, List.nodup_append] at hnodup
  constructor
  · have hpositions := congrArg (List.map fun d => d.2.place) h.declarations
    rw [List.map_map, List.map_map] at hpositions
    exact hpositions ▸ hnodup.1
  · have hpositions := congrArg (List.map Position.place) h.usings
    rw [List.map_map, List.map_map] at hpositions
    exact hpositions ▸ hnodup.2.1

namespace CompilationUnit

theorem separate_ofSource (source : String) : (ofSource source).outline.Separate := by
  obtain ⟨named, firsts, hnames, htokens⟩ := names_ofTokens (TokenStream.ofSource source).significant
  exact hnames.separate htokens (TokenStream.nodup_places source)

/-- A declaration has the name and the place of one token. -/
theorem exists_unique_token {source : String} {d : Declaration} (h : d ∈ (ofSource source).outline.declarations) :
    ∃! t, t ∈ (TokenStream.ofSource source).significant ∧ t.identifierName = d.name ∧ t.start = d.position := by
  obtain ⟨named, firsts, hnames, htokens⟩ := names_ofTokens (TokenStream.ofSource source).significant
  have hmem : (d.name, d.position) ∈ named.map fun t => (t.identifierName, t.start) := by
    rw [← hnames.declarations]
    exact List.mem_map.mpr ⟨d, Array.mem_toList_iff.mpr h, rfl⟩
  obtain ⟨t, ht, heq⟩ := List.mem_map.mp hmem
  obtain ⟨hname, hposition⟩ := Prod.mk.inj heq
  have hsignificant := htokens.subset (List.mem_append_left firsts ht)
  refine ⟨t, ⟨hsignificant, hname, hposition⟩, ?_⟩
  rintro u ⟨hu, -, hstart⟩
  refine List.inj_on_of_nodup_map (TokenStream.nodup_places source) hu hsignificant ?_
  rw [hstart, hposition]

end CompilationUnit

/-! ### Findings of a check -/

/-- The place at which a violation is reported. -/
def Violation.place (v : Violation) : Nat ×ₗ Nat := toLex (v.line, v.column)

/-- What rules look at stands at places of its own. -/
structure Subject.Separate (s : Subject) : Prop where
  outline : ∀ o ∈ s.outline, o.Separate
  significant : (s.significant.map (·.start.place)).Nodup

namespace Subject.Separate

variable {s : Subject}

theorem declarations (h : s.Separate) : (s.declarations.map (·.position.place)).Nodup := by
  rw [Subject.declarations]
  cases houtline : s.outline with
  | none => exact .nil
  | some o => exact (h.outline o houtline).declarations

theorem usings (h : s.Separate) : ((s.outline.elim [] (·.usings.toList)).map (·.position.place)).Nodup := by
  cases houtline : s.outline with
  | none => exact .nil
  | some o => exact (h.outline o houtline).usings

end Subject.Separate

/-- Items that are reported at some of the given places, each at its own, are reported once. -/
private theorem nodup_reported {α : Type} {found : List α} {report : α → Violation} {place : α → Nat ×ₗ Nat}
    {places : List (Nat ×ₗ Nat)} (hreport : ∀ a, (report a).place = place a)
    (hfound : (found.map place).Sublist places) (h : places.Nodup) : ((found.map report).map (·.place)).Nodup := by
  have hplaces : (found.map report).map (·.place) = found.map place := by
    rw [List.map_map]
    exact List.map_congr_left fun a _ => hreport a
  rw [hplaces]
  exact h.sublist hfound

namespace OneDeclarationPerLine

theorem nodup_declarators {s : Subject} (h : s.Separate) :
    ((declarators s).map (·.2.position.place)).Nodup := by
  have hgrouped : ((s.declarations.filterMap fun d => d.group.map fun place => (place, d)).map
      (·.2.position.place)).Nodup := by
    refine List.pairwise_map.mpr ((List.pairwise_map.mp h.declarations).filterMap _ fun d e hne p hp q hq => ?_)
    obtain ⟨place, -, rfl⟩ := Option.map_eq_some_iff.mp hp
    obtain ⟨place', -, rfl⟩ := Option.map_eq_some_iff.mp hq
    exact hne
  exact ((List.mergeSort_perm _ _).map _).nodup_iff.mpr hgrouped

/-- Each item is the second of its neighbours once, the first item never. -/
theorem seconds_sublist {α : Type} (p : α × α → Bool) (items : List α) :
    (((neighbours items).filter p).map Prod.snd).Sublist items := by
  have hseconds : (neighbours items).map Prod.snd = items.tail :=
    List.map_snd_zip (by rw [List.length_tail]; exact Nat.sub_le _ _)
  refine (List.filter_sublist.map Prod.snd).trans ?_
  rw [hseconds]
  exact List.tail_sublist items

end OneDeclarationPerLine

/-- The tokens in front of which a statement ends on the same line come one after another, behind the first token. -/
theorem OneStatementPerLine.crowded_sublist (pending : List String) (previous : Option Token) (tokens : List Token) :
    (crowded pending previous tokens).Sublist tokens.tail := by
  fun_induction crowded pending previous tokens with
  | case1 => exact .slnil
  | case2 _ _ t rest _ ih | case3 _ _ t rest _ _ ih | case5 _ _ t rest _ _ _ ih =>
    exact ih.trans (List.tail_sublist rest)
  | case4 pending previous t rest _ _ _ ih =>
    rw [List.tail_cons]
    cases rest with
    | nil => exact ih
    | cons next rest => exact ih.cons_cons next

theorem ShortCircuit.needless_sublist (before tokens : List Token) :
    ((needless before tokens).map Prod.fst).Sublist tokens := by
  induction tokens generalizing before with
  | nil => exact .slnil
  | cons t rest ih =>
    rw [needless]
    split
    · split
      · exact (ih (t :: before)).cons_cons t
      · exact (ih (t :: before)).cons t
    · exact (ih (t :: before)).cons t

/-- A check reports what it finds at places of its own. -/
theorem Check.nodup_places {s : Subject} (h : s.Separate) (c : Check) : ((c.run s).map (·.place)).Nodup := by
  -- Rules on declarations of one role report some of them.
  have hrole (role : Role) (p : Declaration → Bool) :
      (((s.withRole role).filter p).map (·.position.place)).Sublist (s.declarations.map (·.position.place)) :=
    (List.filter_sublist.trans List.filter_sublist).map _
  cases c with
  | naming n => exact nodup_reported (fun _ => rfl) (hrole n.role _) h.declarations
  | varApparentType => exact nodup_reported (fun _ => rfl) (hrole .localVariable _) h.declarations
  | explicitForeachType => exact nodup_reported (fun _ => rfl) (hrole .localVariable _) h.declarations
  | usingOutsideNamespace => exact nodup_reported (fun _ => rfl) (List.filter_sublist.map _) h.usings
  | shortCircuitOperator =>
    have hfound := (ShortCircuit.needless_sublist [] s.significant).map (·.start.place)
    rw [List.map_map] at hfound
    exact nodup_reported (fun _ => rfl) hfound h.significant
  | oneStatementPerLine =>
    have hfound := (OneStatementPerLine.crowded_sublist [] none s.significant).trans (List.tail_sublist _)
    exact nodup_reported (fun _ => rfl) (hfound.map (·.start.place)) h.significant
  | oneDeclarationPerLine =>
    have hfound (p : (GroupPlace × Declaration) × GroupPlace × Declaration → Bool) :=
      (OneDeclarationPerLine.seconds_sublist p (OneDeclarationPerLine.declarators s)).map (·.2.position.place)
    simp only [List.map_map] at hfound
    exact nodup_reported (fun _ => rfl) (hfound _) (OneDeclarationPerLine.nodup_declarators h)

/-! ### Findings of an analyzer -/

theorem EnabledCheck.nodup_places {s : Subject} (h : s.Separate) (e : EnabledCheck) :
    ((e.run s).map (·.place)).Nodup := by
  rw [EnabledCheck.run]
  split
  · rw [List.map_map]
    exact Check.nodup_places h e.check
  · exact .nil

/-- No two violations of one rule are reported at the same place, if no rule stands twice in the set. -/
theorem RuleSet.nodup_run {set : RuleSet} (hdistinct : (set.map (·.check.rule.name)).Nodup) {s : Subject}
    (h : s.Separate) : ((set.run s).map fun v => (v.rule, v.line, v.column)).Nodup := by
  induction set with
  | nil => exact .nil
  | cons e set ih =>
    rw [List.map_cons, List.nodup_cons] at hdistinct
    rw [run_cons, List.map_append, List.nodup_append]
    refine ⟨?_, ih hdistinct.2, ?_⟩
    · refine List.Nodup.of_map (fun key => toLex key.2) ?_
      rw [List.map_map]
      exact EnabledCheck.nodup_places h e
    · intro key hkey key' hkey' heq
      obtain ⟨v, hv, rfl⟩ := List.mem_map.mp hkey
      obtain ⟨w, hw, rfl⟩ := List.mem_map.mp hkey'
      rw [run_eq_flatMap] at hw
      obtain ⟨other, hother, hw⟩ := List.mem_flatMap.mp hw
      have hrule : v.rule = w.rule := congrArg Prod.fst heq
      rw [EnabledCheck.rule_of_mem_run hv, EnabledCheck.rule_of_mem_run hw] at hrule
      exact hdistinct.1 (List.mem_map.mpr ⟨other, hother, hrule.symm⟩)

theorem Subject.separate_ofStream (file : Path) (source : String) (symbols : Symbols) :
    (Subject.ofStream file source (.ofSource source)
      ((FileAnalyzer.unit? (.ofSource source)).map (·.outline)) symbols).Separate where
  outline o ho := by
    obtain ⟨unit, hunit, rfl⟩ := Option.map_eq_some_iff.mp ho
    rw [FileAnalyzer.unit?] at hunit
    split at hunit
    · cases hunit
      exact CompilationUnit.separate_ofSource source
    · cases hunit
  significant := TokenStream.nodup_places source

namespace Analyzer

/-- Every declaration is recorded once and every finding reported once. A declaration has the name and the place of one
token, no two declarations have the same place, and no two violations of one rule are reported at the same line and
column, whatever the settings and the names that match a pattern. -/
theorem recorded_and_reported_once :
    (∀ source : String,
      (∀ d ∈ (CompilationUnit.ofSource source).outline.declarations,
        ∃! t, t ∈ (TokenStream.ofSource source).significant ∧ t.identifierName = d.name ∧ t.start = d.position) ∧
      ((CompilationUnit.ofSource source).outline.declarations.toList.map (·.position)).Nodup) ∧
    ∀ {settings : Settings} {symbols : Symbols} {patterns : PatternReader} {a : Analyzer},
      ofSettings settings symbols patterns = .ok a →
      ∀ (interrupted : Interruption) (file : Path) (source : String) {report : FileReport},
        a.analyzeSource interrupted file source = some report →
        (report.violations.map fun v => (v.rule, v.line, v.column)).Nodup := by
  constructor
  · intro source
    refine ⟨fun d hd => CompilationUnit.exists_unique_token hd, List.Nodup.of_map Position.place ?_⟩
    rw [List.map_map]
    exact (CompilationUnit.separate_ofSource source).declarations
  · intro settings symbols patterns a ha interrupted file source report hreport
    rw [analyzeSource_eq_map ha] at hreport
    split at hreport
    · cases hreport
    · cases hreport
      have hdistinct : (a.files.rules.map (·.check.rule.name)).Nodup :=
        RuleSet.nodup_of_ofSelections (ofSettings_eq_ok ha).2.2.1 settings.nodup_selections
      exact RuleSet.nodup_run hdistinct (Subject.separate_ofStream file source symbols)

/-- The locals of a lambda are recorded before the local whose value it is. -/
theorem recorded_and_reported_once_in_lambda :
    let source := "class c \x7b void M() \x7b var f = () => \x7b int a = 1, b = 2; \x7d; \x7d \x7d"
    (CompilationUnit.ofSource source).outline.declarations.toList.map (·.name) = ["c", "M", "a", "b", "f"] ∧
    ((CompilationUnit.ofSource source).outline.declarations.toList.map (·.position)).Nodup ∧
    ∃ a report, ofSettings {} .unknown = .ok a ∧ a.analyzeSource .never ⟨"C.cs"⟩ source = some report ∧
      (report.violations.map fun v => (v.rule, v.line, v.column)).Nodup := by
  intro source
  have hvalid : ({} : Settings).validate = .ok () := Except.eq_ok_of_isOk (by decide +kernel)
  obtain ⟨a, ha⟩ := exists_ofSettings hvalid (by decide) .unknown
  refine ⟨by decide +kernel, (recorded_and_reported_once.1 source).2, a, a.files.report ⟨"C.cs"⟩ source, ha, rfl, ?_⟩
  exact recorded_and_reported_once.2 ha .never ⟨"C.cs"⟩ source rfl

end Analyzer

end CSharpStyle
