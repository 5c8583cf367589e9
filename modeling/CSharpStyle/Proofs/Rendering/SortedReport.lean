import CSharpStyle.Proofs.Cache.Agreement
import CSharpStyle.Proofs.Rendering.Presentation
import Mathlib.Data.List.Pairwise

/-!
# Records of a sorted report

A report sorts its violations and its diagnostics apart, and a rendering sorts the records of both together. All orders
look at the place of a finding first. Violations are then compared in one way. Diagnostics at one place are compared by
their kinds in the report, where malformed files come before unreadable ones and these before settings, and by the names
of the kinds in a rendering. The two orders agree on malformed files, and on nothing else.

* `Record.order_ofViolation`: records of violations are ordered as the violations are.
* `DiagnosticKind.compare_name_eq`: where the order of kinds is that of their names.
* `Diagnostic.pairwise_ofDiagnostic_iff`: when sorted diagnostics are in order as records.
* `Report.records_sorted`: what the records of a sorted report have in common with its lists.
-/

namespace CSharpStyle

theorem Record.order_ofViolation (v w : Violation) : (ofViolation v).order (ofViolation w) = v.order w := rfl

/-- The file was read, and its text is malformed. -/
def DiagnosticKind.isMalformation : DiagnosticKind → Bool
  | lexical | structural => true
  | io | settings => false

namespace DiagnosticKind

variable {k l : DiagnosticKind}

theorem compare_name_eq (h : k = l ∨ k.isMalformation ∧ l.isMalformation) :
    compare k.name l.name = compare k.rank l.rank := by
  revert h
  cases k <;> cases l <;> decide

/-- Kinds that come in one order by themselves and by their names. -/
theorem alike_of_isLE (hrank : (compare k.rank l.rank).isLE = true) (hname : (compare k.name l.name).isLE = true) :
    k = l ∨ k.isMalformation ∧ l.isMalformation := by
  revert hrank hname
  cases k <;> cases l <;> decide

end DiagnosticKind

namespace Diagnostic

variable {d e : Diagnostic}

/-- The diagnostics are about one line and column of a file, or both about the file as a whole. -/
structure AtOnePlace (d e : Diagnostic) : Prop where
  file : d.file.components = e.file.components
  line : d.line.getD 0 = e.line.getD 0
  column : d.column.getD 0 = e.column.getD 0

instance (d e : Diagnostic) : Decidable (d.AtOnePlace e) :=
  decidable_of_iff
    (d.file.components = e.file.components ∧ d.line.getD 0 = e.line.getD 0 ∧ d.column.getD 0 = e.column.getD 0)
    ⟨fun ⟨hfile, hline, hcolumn⟩ => ⟨hfile, hline, hcolumn⟩, fun h => ⟨h.file, h.line, h.column⟩⟩

/-- By file, line and column. -/
def placeOrder (d e : Diagnostic) : Ordering :=
  (d.file.order e.file).then ((compare (d.line.getD 0) (e.line.getD 0)).then
    (compare (d.column.getD 0) (e.column.getD 0)))

theorem placeOrder_eq_iff : d.placeOrder e = .eq ↔ d.AtOnePlace e := by
  rw [placeOrder, Ordering.then_eq_eq, Ordering.then_eq_eq, ← Path.same_iff_order_eq, Path.same_iff,
    Std.LawfulEqOrd.compare_eq_iff_eq, Std.LawfulEqOrd.compare_eq_iff_eq]
  exact ⟨fun ⟨hfile, hline, hcolumn⟩ => ⟨hfile, hline, hcolumn⟩, fun h => ⟨h.file, h.line, h.column⟩⟩

theorem order_eq_then (d e : Diagnostic) :
    d.order e = (d.placeOrder e).then ((compare d.kind.rank e.kind.rank).then (compare d.message e.message)) := by
  simp only [order, placeOrder, Ordering.then_assoc]

theorem order_ofDiagnostic_eq_then (d e : Diagnostic) :
    (Record.ofDiagnostic d).order (Record.ofDiagnostic e) =
      (d.placeOrder e).then ((compare d.kind.name e.kind.name).then (compare d.message e.message)) := by
  simp only [Record.order, Record.ofDiagnostic, placeOrder, Ordering.then_assoc]

/-- A diagnostic is ordered as its record is against all that are elsewhere or of a like kind. -/
theorem order_ofDiagnostic (h : d.AtOnePlace e → d.kind = e.kind ∨ d.kind.isMalformation ∧ e.kind.isMalformation) :
    (Record.ofDiagnostic d).order (Record.ofDiagnostic e) = d.order e := by
  rw [order_eq_then, order_ofDiagnostic_eq_then]
  cases hplace : d.placeOrder e with
  | lt => rfl
  | gt => rfl
  | eq => rw [DiagnosticKind.compare_name_eq (h (placeOrder_eq_iff.mp hplace))]

/-- Diagnostics at one place that come in one order by themselves and as records are of a like kind. -/
theorem AtOnePlace.alike (hplace : d.AtOnePlace e) (horder : (d.order e).isLE = true)
    (hrecords : ((Record.ofDiagnostic d).order (Record.ofDiagnostic e)).isLE = true) :
    d.kind = e.kind ∨ d.kind.isMalformation ∧ e.kind.isMalformation := by
  rw [order_eq_then, placeOrder_eq_iff.mpr hplace, Ordering.eq_then] at horder
  rw [order_ofDiagnostic_eq_then, placeOrder_eq_iff.mpr hplace, Ordering.eq_then] at hrecords
  exact DiagnosticKind.alike_of_isLE (Ordering.isLE_left_of_isLE_then horder)
    (Ordering.isLE_left_of_isLE_then hrecords)

theorem AtOnePlace.symm (h : d.AtOnePlace e) : e.AtOnePlace d := ⟨h.file.symm, h.line.symm, h.column.symm⟩

/-- Sorted diagnostics are in order as records if those at one place are all of a like kind, and otherwise not. -/
theorem pairwise_ofDiagnostic_iff (diagnostics : List Diagnostic) :
    ((sortBy order diagnostics).Pairwise fun d e =>
        ((Record.ofDiagnostic d).order (Record.ofDiagnostic e)).isLE = true) ↔
      ∀ d ∈ diagnostics, ∀ e ∈ diagnostics, d.AtOnePlace e →
        d.kind = e.kind ∨ d.kind.isMalformation ∧ e.kind.isMalformation := by
  have hmem {d : Diagnostic} : d ∈ sortBy order diagnostics ↔ d ∈ diagnostics := (perm_sortBy ..).mem_iff
  have hsorted : (sortBy order diagnostics).Pairwise fun d e => (d.order e).isLE = true := pairwise_sortBy diagnostics
  constructor
  · intro hrecords
    -- One of two diagnostics comes first in both orders, and it does not matter which.
    have hsymm : Std.Symm fun d e : Diagnostic =>
        d.AtOnePlace e → d.kind = e.kind ∨ d.kind.isMalformation ∧ e.kind.isMalformation :=
      ⟨fun _ _ h hplace => (h hplace.symm).imp Eq.symm And.symm⟩
    have hpairs := (hsorted.and hrecords).imp fun ⟨horder, hrecord⟩ hplace => AtOnePlace.alike hplace horder hrecord
    intro d hd e he
    exact hpairs.forall_of_forall (fun _ _ _ => .inl rfl) (hmem.mpr hd) (hmem.mpr he)
  · intro h
    refine hsorted.imp_of_mem fun hd he horder => ?_
    rw [order_ofDiagnostic (h _ (hmem.mp hd) _ (hmem.mp he))]
    exact horder

end Diagnostic

theorem DiagnosticKind.name_injective : Function.Injective name := by
  intro k l h
  revert h
  cases k <;> cases l <;> decide

theorem Record.ofDiagnostic_injective : Function.Injective ofDiagnostic := by
  rintro ⟨kind, file, line, column, message⟩ ⟨kind', file', line', column', message'⟩ h
  simp only [ofDiagnostic, mk.injEq] at h
  obtain ⟨rfl, rfl, rfl, hname, -, rfl, -⟩ := h
  cases DiagnosticKind.name_injective hname
  rfl

namespace Report

variable (report : Report) (options : RenderOptions)

theorem records_unfiltered :
    report.records { options with minSeverity := none } =
      sortBy Record.order (report.violations.map .ofViolation ++ report.diagnostics.map .ofDiagnostic) := by
  rw [records]
  congr 3
  exact List.filter_eq_self.mpr fun _ _ => rfl

theorem filter_records_violations :
    (report.records { options with minSeverity := none }).filter (!·.isDiagnostic) =
      (sortBy Violation.order report.violations).map .ofViolation := by
  have hviolations : (report.violations.map Record.ofViolation).filter (!·.isDiagnostic) =
      report.violations.map .ofViolation := by
    rw [List.filter_map]
    exact congrArg _ (List.filter_eq_self.mpr fun _ _ => rfl)
  have hdiagnostics : (report.diagnostics.map Record.ofDiagnostic).filter (!·.isDiagnostic) = [] := by
    rw [List.filter_map]
    exact congrArg _ (List.filter_eq_nil_iff.mpr fun _ _ => Bool.false_ne_true)
  rw [records_unfiltered, sortBy_filter, List.filter_append, hviolations, hdiagnostics, List.append_nil, sortBy_map]
  simp only [Record.order_ofViolation]

theorem filter_records_diagnostics :
    (report.records { options with minSeverity := none }).filter (·.isDiagnostic) =
      (sortBy (fun d e => (Record.ofDiagnostic d).order (Record.ofDiagnostic e)) report.diagnostics).map
        .ofDiagnostic := by
  have hviolations : (report.violations.map Record.ofViolation).filter (·.isDiagnostic) = [] := by
    rw [List.filter_map]
    exact congrArg _ (List.filter_eq_nil_iff.mpr fun _ _ => Bool.false_ne_true)
  have hdiagnostics : (report.diagnostics.map Record.ofDiagnostic).filter (·.isDiagnostic) =
      report.diagnostics.map .ofDiagnostic := by
    rw [List.filter_map]
    exact congrArg _ (List.filter_eq_self.mpr fun _ _ => rfl)
  rw [records_unfiltered, sortBy_filter, List.filter_append, hviolations, hdiagnostics, List.nil_append, sortBy_map]

/-- The records of diagnostics are in the order of a sorted report if the diagnostics at one place are all of a like
kind, and otherwise not. -/
theorem filter_records_sorted_iff :
    (report.sorted.records { options with minSeverity := none }).filter (·.isDiagnostic) =
        report.sorted.diagnostics.map .ofDiagnostic ↔
      ∀ d ∈ report.diagnostics, ∀ e ∈ report.diagnostics, d.AtOnePlace e →
        d.kind = e.kind ∨ d.kind.isMalformation ∧ e.kind.isMalformation := by
  have htrans : Std.TransCmp fun d e => (Record.ofDiagnostic d).order (Record.ofDiagnostic e) :=
    transCmp_on Record.order Record.ofDiagnostic
  rw [filter_records_diagnostics, (List.map_injective_iff.mpr Record.ofDiagnostic_injective).eq_iff, sortBy_eq_self_iff]
  exact Diagnostic.pairwise_ofDiagnostic_iff report.diagnostics

/-- When a report is sorted and no record is left out, the records of its violations are in the order of the report. So
are those of its diagnostics if and only if no two diagnostics of different kinds are at one place, other than of kinds
that say that a file is malformed. -/
theorem records_sorted :
    let records := report.sorted.records { options with minSeverity := none }
    records.filter (!·.isDiagnostic) = report.sorted.violations.map .ofViolation ∧
    (records.filter (·.isDiagnostic) = report.sorted.diagnostics.map .ofDiagnostic ↔
      ∀ d ∈ report.diagnostics, ∀ e ∈ report.diagnostics, d.AtOnePlace e →
        d.kind = e.kind ∨ d.kind.isMalformation ∧ e.kind.isMalformation) := by
  intro records
  refine ⟨?_, report.filter_records_sorted_iff options⟩
  have hsorted : sortBy Violation.order report.sorted.violations = report.sorted.violations :=
    sortBy_eq_self_iff.mpr (pairwise_sortBy report.violations)
  exact (report.sorted.filter_records_violations options).trans (congrArg _ hsorted)

/-- A malformed token, and a defect of the structure at the same place of the file, whose path is written in another
way. -/
theorem records_sorted_malformed_file :
    let report : Report :=
      { violations := [⟨"ClassName", .error, ⟨"a/B.cs"⟩, 3, 7, "Class", none, none⟩]
        diagnostics :=
          [⟨.structural, ⟨"a//B.cs"⟩, some 3, some 7, "Defect"⟩, ⟨.lexical, ⟨"a/B.cs"⟩, some 3, some 7, "Token"⟩] }
    (∀ d ∈ report.diagnostics, ∀ e ∈ report.diagnostics, d.AtOnePlace e →
      d.kind = e.kind ∨ d.kind.isMalformation ∧ e.kind.isMalformation) ∧
    (report.sorted.records {}).filter (!·.isDiagnostic) = report.sorted.violations.map .ofViolation ∧
    (report.sorted.records {}).filter (·.isDiagnostic) = report.sorted.diagnostics.map .ofDiagnostic := by
  intro report
  have halike : ∀ d ∈ report.diagnostics, ∀ e ∈ report.diagnostics, d.AtOnePlace e →
      d.kind = e.kind ∨ d.kind.isMalformation ∧ e.kind.isMalformation := by decide
  obtain ⟨hviolations, hdiagnostics⟩ := report.records_sorted {}
  exact ⟨halike, hviolations, hdiagnostics.mpr halike⟩

/-- A file of settings that are doubtful, and that cannot be read any more. -/
theorem records_not_sorted :
    let report : Report :=
      { diagnostics :=
          [⟨.io, ⟨"lint.yaml"⟩, none, none, "Unreadable"⟩, ⟨.settings, ⟨"lint.yaml"⟩, none, none, "Doubtful"⟩] }
    (report.sorted.records {}).filter (·.isDiagnostic) ≠ report.sorted.diagnostics.map .ofDiagnostic := by
  intro report
  rw [Ne, report.filter_records_sorted_iff {}]
  decide

end Report

end CSharpStyle
