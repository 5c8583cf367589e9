import CSharpStyle.Proofs.Findings.Distinct
import CSharpStyle.Proofs.Layout.Structure
import CSharpStyle.Proofs.Source.Lines

/-!
# Findings point at tokens

Rules report declarations, directives and tokens at their places, and reading reports defects where it stands. All
these places are starts of tokens, so that a violation can show the line on which its token starts.

* `CompilationUnit.placed_ofTokens`: the places in a unit are starts of its tokens.
* `Check.exists_place`: a check reports at the place of what it looks at.
* `Violation.PointsAt`: a violation has the place of a token, and the trimmed line around it as context.
* `Analyzer.findings_point_at_tokens`: so do all findings in every source, whatever the settings.
-/

namespace CSharpStyle

/-! ### Places in a unit -/

/-- Declarations, directives and defects stand at starts of the tokens. -/
structure CompilationUnit.Placed (tokens : List Token) (u : CompilationUnit) : Prop where
  declarations : ∀ d ∈ u.outline.declarations.toList, ∃ t ∈ tokens, d.position = t.start
  usings : ∀ d ∈ u.outline.usings.toList, ∃ t ∈ tokens, d.position = t.start
  errors : ∀ e ∈ u.errors, ∃ t ∈ tokens, e.position = t.start

/-- A file is read like itself, and places that correspond are starts of the same token. -/
theorem CompilationUnit.placed_ofTokens (tokens : List Token) : (ofTokens tokens).Placed tokens := by
  have halike : (ofTokens tokens).Alike (Position.SameToken tokens tokens) (ofTokens tokens) :=
    alike_of_tokens (List.forall₂_same.mpr fun _ _ => .rfl)
  have hplace {p q : Position} (h : p.SameToken tokens tokens q) : ∃ t ∈ tokens, p = t.start := by
    obtain ⟨i, t, -, ht, -, hp, -⟩ := h
    exact ⟨t, List.mem_of_getElem? ht, hp⟩
  constructor
  · intro d hd
    exact hplace (List.forall₂_same.mp halike.outline.declarations d hd).1.position
  · intro u hu
    exact hplace (List.forall₂_same.mp halike.outline.usings u hu).position
  · intro e he
    exact hplace (List.forall₂_same.mp halike.errors e he).position

/-! ### Places of violations -/

namespace Subject

/-- The places of all that rules look at. -/
def places (s : Subject) : List Position :=
  s.declarations.map (·.position) ++ (s.outline.elim [] (·.usings.toList)).map (·.position) ++
    s.significant.map (·.start)

/-- The violation is reported at the place, with the line of the place as context. -/
structure ReportsAt (s : Subject) (place : Position) (v : Violation) : Prop where
  line : v.line = place.line
  column : v.column = place.column
  context : v.context = s.context? place.line

variable {s : Subject}

theorem reportsAt_violation (rule : Rule) (place : Position) (message : String) (fix : Option String) :
    s.ReportsAt place (s.violation rule place message fix) := ⟨rfl, rfl, rfl⟩

theorem position_mem_places {d : Declaration} (h : d ∈ s.declarations) : d.position ∈ s.places :=
  List.mem_append_left _ (List.mem_append_left _ (List.mem_map.mpr ⟨d, h, rfl⟩))

theorem using_mem_places {u : UsingDirective} (h : u ∈ s.outline.elim [] (·.usings.toList)) :
    u.position ∈ s.places :=
  List.mem_append_left _ (List.mem_append_right _ (List.mem_map.mpr ⟨u, h, rfl⟩))

theorem start_mem_places {t : Token} (h : t ∈ s.significant) : t.start ∈ s.places :=
  List.mem_append_right _ (List.mem_map.mpr ⟨t, h, rfl⟩)

end Subject

/-- A declarator of a group is a declaration of the file. -/
theorem OneDeclarationPerLine.mem_declarations {s : Subject} {p : GroupPlace × Declaration} (h : p ∈ declarators s) :
    p.2 ∈ s.declarations := by
  obtain ⟨d, hd, heq⟩ := List.mem_filterMap.mp ((List.mergeSort_perm _ _).mem_iff.mp h)
  obtain ⟨place, -, rfl⟩ := Option.map_eq_some_iff.mp heq
  exact hd

/-- A check reports at the place of what it looks at. -/
theorem Check.exists_place {s : Subject} {c : Check} {v : Violation} (h : v ∈ c.run s) :
    ∃ place ∈ s.places, s.ReportsAt place v := by
  have hrole {role : Role} {p : Declaration → Bool} {d : Declaration} (hd : d ∈ (s.withRole role).filter p) :
      d.position ∈ s.places := Subject.position_mem_places (List.mem_of_mem_filter (List.mem_of_mem_filter hd))
  cases c with
  | naming n =>
    obtain ⟨d, hd, rfl⟩ := List.mem_map.mp h
    exact ⟨d.position, hrole hd, Subject.reportsAt_violation ..⟩
  | varApparentType =>
    obtain ⟨d, hd, rfl⟩ := List.mem_map.mp h
    exact ⟨d.position, hrole hd, Subject.reportsAt_violation ..⟩
  | explicitForeachType =>
    obtain ⟨d, hd, rfl⟩ := List.mem_map.mp h
    exact ⟨d.position, hrole hd, Subject.reportsAt_violation ..⟩
  | usingOutsideNamespace =>
    obtain ⟨u, hu, rfl⟩ := List.mem_map.mp h
    exact ⟨u.position, Subject.using_mem_places (List.mem_of_mem_filter hu), Subject.reportsAt_violation ..⟩
  | shortCircuitOperator =>
    obtain ⟨⟨t, short⟩, hfound, rfl⟩ := List.mem_map.mp h
    have ht := (ShortCircuit.needless_sublist [] s.significant).subset (List.mem_map.mpr ⟨(t, short), hfound, rfl⟩)
    exact ⟨t.start, Subject.start_mem_places ht, Subject.reportsAt_violation ..⟩
  | oneStatementPerLine =>
    obtain ⟨t, hfound, rfl⟩ := List.mem_map.mp h
    have ht := (OneStatementPerLine.crowded_sublist [] none s.significant).subset hfound
    exact ⟨t.start, Subject.start_mem_places (List.mem_of_mem_tail ht), Subject.reportsAt_violation ..⟩
  | oneDeclarationPerLine =>
    obtain ⟨⟨previous, current⟩, hfound, rfl⟩ := List.mem_map.mp h
    have hcurrent := (OneDeclarationPerLine.seconds_sublist _ (OneDeclarationPerLine.declarators s)).subset
      (List.mem_map.mpr ⟨(previous, current), hfound, rfl⟩)
    exact ⟨current.2.position, Subject.position_mem_places (OneDeclarationPerLine.mem_declarations hcurrent),
      Subject.reportsAt_violation ..⟩

/-- The severity that was chosen for a check changes nothing about the place. -/
theorem RuleSet.exists_place {s : Subject} {set : RuleSet} {v : Violation} (h : v ∈ set.run s) :
    ∃ place ∈ s.places, s.ReportsAt place v := by
  rw [run_eq_flatMap] at h
  obtain ⟨e, -, hv⟩ := List.mem_flatMap.mp h
  rw [EnabledCheck.run] at hv
  split at hv
  · obtain ⟨w, hw, rfl⟩ := List.mem_map.mp hv
    obtain ⟨place, hplace, hreports⟩ := Check.exists_place hw
    exact ⟨place, hplace, hreports.line, hreports.column, hreports.context⟩
  · cases hv

/-! ### Findings in a source -/

/-- The violation is reported at the start of the token, and its context is the trimmed line between newlines on which
the token starts. -/
structure Violation.PointsAt (v : Violation) (source : String) (t : Token) : Prop where
  line : v.line = t.start.line
  column : v.column = t.start.column
  context : ∃ before behind text, before ++ behind = source.toList ∧ t.start.IsBehind before ∧
    IsTrimmed (lineAround before behind) text ∧ text ≠ [] ∧ v.context = some (String.ofList text)

/-- The diagnostic is reported at the place. -/
structure Diagnostic.PointsAt (d : Diagnostic) (place : Position) : Prop where
  line : d.line = some place.line
  column : d.column = some place.column

section

variable {file : Path} {source : String} {outline : Option Outline} {symbols : Symbols}

/-- Places in the outline of a source are starts of its tokens. -/
theorem Subject.exists_token {place : Position}
    (h : place ∈ (ofStream file source (.ofSource source)
      ((FileAnalyzer.unit? (.ofSource source)).map (·.outline)) symbols).places) :
    ∃ t ∈ (TokenStream.ofSource source).significant, place = t.start := by
  have hplaced := CompilationUnit.placed_ofTokens (TokenStream.ofSource source).significant
  have hunit : FileAnalyzer.unit? (.ofSource source) = none ∨
      FileAnalyzer.unit? (.ofSource source) = some (.ofTokens (TokenStream.ofSource source).significant) := by
    rw [FileAnalyzer.unit?]
    split
    · exact .inr rfl
    · exact .inl rfl
  rw [places, List.mem_append, List.mem_append, List.mem_map, List.mem_map, List.mem_map] at h
  rcases h with (⟨d, hd, rfl⟩ | ⟨u, hu, rfl⟩) | ⟨t, ht, rfl⟩
  · rcases hunit with hunit | hunit
    · rw [Subject.declarations, ofStream, hunit] at hd
      cases hd
    · rw [Subject.declarations, ofStream, hunit] at hd
      exact hplaced.declarations d hd
  · rcases hunit with hunit | hunit
    · rw [ofStream, hunit] at hu
      cases hu
    · rw [ofStream, hunit] at hu
      exact hplaced.usings u hu
  · exact ⟨t, ht, rfl⟩

/-- The line that a rule shows for the start of a token is the trimmed line around it. -/
theorem Violation.pointsAt_of_reportsAt {v : Violation} {t : Token}
    (ht : t ∈ (TokenStream.ofSource source).significant)
    (h : (Subject.ofStream file source (.ofSource source) outline symbols).ReportsAt t.start v) :
    v.PointsAt source t := by
  refine ⟨h.line, h.column, ?_⟩
  obtain ⟨before, behind, c, hsource, hbehind, hhead, hc⟩ := TokenStream.exists_start ht
  obtain ⟨hline, hne⟩ := getElem?_trimmedLines hsource hhead hc
  refine ⟨before, behind, trimmed (lineAround before behind), hsource, hbehind, isTrimmed_trimmed _, hne, ?_⟩
  have hnumber : t.start.line - 1 = before.count '\n' := by
    rw [hbehind.line_eq]
    omega
  have hpositive : t.start.line ≠ 0 := by
    rw [hbehind.line_eq]
    omega
  have hnonempty : (String.ofList (trimmed (lineAround before behind)) != "") = true := by
    simpa using hne
  rw [h.context, Subject.context?, if_neg hpositive, Subject.ofStream, hnumber, hline,
    Option.filter_some, if_pos hnonempty]

end

/-- Positions in reports are real. Every violation and every structural defect is reported at the start of a
significant token, every malformed lexeme at its start, and every violation shows the trimmed line on which its token
starts, which is not blank: in every source, whatever the settings and whatever is known of the project. -/
theorem Analyzer.findings_point_at_tokens (a : Analyzer) (interrupted : Interruption) (file : Path) (source : String)
    {report : FileReport} (h : a.analyzeSource interrupted file source = some report) :
    (∀ v ∈ report.violations, ∃ t ∈ (TokenStream.ofSource source).significant, v.PointsAt source t) ∧
      ∀ d ∈ report.diagnostics,
        (d.kind = .structural ∧ ∃ t ∈ (TokenStream.ofSource source).significant, d.PointsAt t.start) ∨
          (d.kind = .lexical ∧ ∃ e, .error e ∈ (Lexer.ofSource source).items ∧ d.PointsAt e.span.start) := by
  rw [analyzeSource, FileAnalyzer.analyze] at h
  split at h
  · cases h
  cases h
  constructor
  · intro v hv
    obtain ⟨place, hplace, hreports⟩ := RuleSet.exists_place hv
    obtain ⟨t, ht, rfl⟩ := Subject.exists_token hplace
    exact ⟨t, ht, Violation.pointsAt_of_reportsAt ht hreports⟩
  · intro d hd
    rcases List.mem_append.mp hd with hd | hd
    · right
      obtain ⟨e, he, rfl⟩ := List.mem_map.mp hd
      obtain ⟨item, hitem, heq⟩ := List.mem_filterMap.mp he
      cases item with
      | token t => cases heq
      | error f =>
        cases heq
        exact ⟨rfl, e, hitem, rfl, rfl⟩
    · left
      obtain ⟨e, he, rfl⟩ := List.mem_map.mp hd
      rw [FileAnalyzer.unit?] at he
      split at he
      · obtain ⟨t, ht, hposition⟩ := (CompilationUnit.placed_ofTokens _).errors e he
        refine ⟨rfl, t, ht, ?_, ?_⟩
        · rw [← hposition]
          rfl
        · rw [← hposition]
          rfl
      · cases he

/-- A class that is never closed, with no-break spaces in front of its fields and carriage returns: the second field is
shown with its line, and the defect stands at the brace on the line before. -/
theorem Analyzer.findings_point_at_tokens_unclosed_class :
    let source := "class C \x7b\r\n\u00a0\u00a0 int a; int b; \r\n"
    let a : Analyzer := ⟨{}, ⟨[], none⟩, RuleSet.ofChecks [.oneStatementPerLine], .unknown⟩
    ∃ report, a.analyzeSource .never ⟨"C.cs"⟩ source = some report ∧
      (report.violations.map fun v => (v.line, v.column, v.context)) = [(2, 11, some "int a; int b;")] ∧
      (report.diagnostics.map fun d => (d.kind, d.line, d.column)) = [(.structural, some 1, some 9)] ∧
      (∀ v ∈ report.violations, ∃ t ∈ (TokenStream.ofSource source).significant, v.PointsAt source t) ∧
      ∀ d ∈ report.diagnostics,
        (d.kind = .structural ∧ ∃ t ∈ (TokenStream.ofSource source).significant, d.PointsAt t.start) ∨
          (d.kind = .lexical ∧ ∃ e, .error e ∈ (Lexer.ofSource source).items ∧ d.PointsAt e.span.start) := by
  intro source a
  obtain ⟨hviolations, hdiagnostics⟩ := findings_point_at_tokens a .never ⟨"C.cs"⟩ source rfl
  exact ⟨a.files.report ⟨"C.cs"⟩ source, rfl, by decide +kernel, by decide +kernel, hviolations, hdiagnostics⟩

end CSharpStyle
