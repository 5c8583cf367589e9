import CSharpStyle.Proofs.Cache.Agreement
import CSharpStyle.Proofs.Findings.Order
import CSharpStyle.Proofs.Runs.Batch
import CSharpStyle.Proofs.Settings.Usability

/-!
# Divided runs

The files of a run are worked off in pieces, and the order of work in different pieces is not known. The report is
always that of one piece, sorted, and says of each file what it would say if the file had been analyzed alone.

* `Report.Collects`: a report holds the sorted findings of files, and counts them.
* `Report.Collects.filter`: what such a report says of one file does not depend on the others.
* `Analyzer.divided_run`: so the division of a run does not matter, nor do malformed files beside a file.
-/

namespace CSharpStyle

/-! ### Reports of batches -/

namespace SeverityCounts

def ofViolations (violations : List Violation) : SeverityCounts := violations.foldl (fun c v => c.count v.severity) {}

theorem count_comm (c : SeverityCounts) (s t : Severity) : (c.count s).count t = (c.count t).count s := by
  cases s <;> cases t <;> rfl

/-- The order of the violations does not matter to their numbers. -/
theorem ofViolations_perm {vs ws : List Violation} (h : vs.Perm ws) : ofViolations vs = ofViolations ws :=
  h.foldl_eq' (fun v _ w _ c => count_comm c v.severity w.severity) {}

end SeverityCounts

namespace Report

theorem foldl_addDiagnostic (noted : List Diagnostic) (r : Report) :
    noted.foldl addDiagnostic r = { r with diagnostics := r.diagnostics ++ noted } := by
  induction noted generalizing r with
  | nil => simp
  | cons d noted ih => simp [ih, addDiagnostic]

theorem foldl_addFile (reports : List FileReport) (r : Report) :
    reports.foldl addFile r =
      { r with
        violations := r.violations ++ reports.flatMap (·.violations)
        diagnostics := r.diagnostics ++ reports.flatMap (·.diagnostics)
        counts := (reports.flatMap (·.violations)).foldl (fun c v => c.count v.severity) r.counts } := by
  induction reports generalizing r with
  | nil => simp
  | cons report reports ih => simp [ih, addFile]

/-- The report holds what was noted beforehand and what was found in the files, in order, and counts both files and
violations. -/
structure Collects (r : Report) (noted : List Diagnostic) (found : Path → FileReport) (files : List Path) : Prop where
  violations : r.violations = sortBy Violation.order (files.flatMap fun p => (found p).violations)
  diagnostics : r.diagnostics = sortBy Diagnostic.order (noted ++ files.flatMap fun p => (found p).diagnostics)
  counts : r.counts = .ofViolations r.violations
  files : r.files = files.length

theorem collects_reportOf (a : Analyzer) (noted : List Diagnostic) {batch : Batch FileReport}
    {found : Path → FileReport} {files : List Path} (h : batch.items = files.map found) :
    (a.reportOf noted batch).Collects (a.settings.diagnostics ++ noted) found files := by
  have hviolations : batch.items.flatMap (·.violations) = files.flatMap fun p => (found p).violations := by
    rw [h, List.flatMap_map]
  have hdiagnostics : batch.items.flatMap (·.diagnostics) = files.flatMap fun p => (found p).diagnostics := by
    rw [h, List.flatMap_map]
  simp only [Analyzer.reportOf, sorted, foldl_addDiagnostic, foldl_addFile, hviolations, hdiagnostics]
  constructor
  · rfl
  · rfl
  · exact SeverityCounts.ofViolations_perm (List.mergeSort_perm _ _).symm
  · rw [h, List.length_map]

/-! ### One file among others -/

/-- All findings name the file they were found in. -/
structure NamesFile (found : Path → FileReport) : Prop where
  violations {p : Path} {v : Violation} (h : v ∈ (found p).violations) : v.file = p
  diagnostics {p : Path} {d : Diagnostic} (h : d ∈ (found p).diagnostics) : d.file = p

private theorem filter_flatMap {α : Type} {items : Path → List α} (file : α → Path)
    (h : ∀ p, ∀ item ∈ items p, file item = p) (files : List Path) (p : Path) :
    (files.flatMap items).filter (fun item => (file item).same p) = (files.filter (·.same p)).flatMap items := by
  induction files with
  | nil => rfl
  | cons q files ih =>
    rw [List.flatMap_cons, List.filter_append, ih]
    by_cases hq : q.same p
    · have hall : (items q).filter (fun item => (file item).same p) = items q :=
        List.filter_eq_self.mpr fun item hitem => by rwa [h q item hitem]
      rw [hall, List.filter_cons, if_pos hq, List.flatMap_cons]
    · have hnone : (items q).filter (fun item => (file item).same p) = [] :=
        List.filter_eq_nil_iff.mpr fun item hitem => by rwa [h q item hitem]
      rw [hnone, List.filter_cons, if_neg hq, List.nil_append]

/-- What a report says of a file is what it would say if no other files had been analyzed. -/
theorem Collects.filter {noted : List Diagnostic} {found : Path → FileReport} {files : List Path} {r alone : Report}
    (hfound : NamesFile found) {p : Path} (h : r.Collects noted found files)
    (halone : alone.Collects noted found (files.filter (·.same p))) :
    r.violations.filter (·.file.same p) = alone.violations ∧
      r.diagnostics.filter (·.file.same p) = alone.diagnostics.filter (·.file.same p) := by
  have htwice : (files.filter (·.same p)).filter (·.same p) = files.filter (·.same p) := by
    simp only [List.filter_filter, Bool.and_self]
  constructor
  · rw [h.violations, halone.violations, sortBy_filter,
      filter_flatMap Violation.file (fun _ _ => hfound.violations)]
  · rw [h.diagnostics, halone.diagnostics, sortBy_filter, sortBy_filter, List.filter_append, List.filter_append,
      filter_flatMap Diagnostic.file (fun _ _ => hfound.diagnostics),
      filter_flatMap Diagnostic.file (fun _ _ => hfound.diagnostics), htwice]

end Report

namespace Analyzer

theorem namesFile_found (a : Analyzer) (fs : FileSystem) : Report.NamesFile (a.found fs) := by
  have hreport (p : Path) : a.found fs p = (a.found fs p).withFile p := by
    rw [found]
    cases hsource : fs.readSource p with
    | ok source => exact a.files.report_file p p source
    | error report =>
      rw [FileSystem.readSource] at hsource
      split at hsource
      · cases hsource
      · cases hsource
        rfl
  constructor
  · intro p v hv
    rw [hreport] at hv
    obtain ⟨w, -, rfl⟩ := List.mem_map.mp hv
    rfl
  · intro p d hd
    rw [hreport] at hd
    obtain ⟨e, -, rfl⟩ := List.mem_map.mp hd
    rfl

/-! ### Runs in pieces -/

theorem items_never (a : Analyzer) (fs : FileSystem) (files : List Path) :
    Batch.ofTasks (a.analyzeFile fs) (tasks .never files) = ⟨files.map (a.found fs), false⟩ := by
  have hrun : ∀ t ∈ tasks .never files, t.run (a.analyzeFile fs) = some (a.found fs t.file) := by
    intro t ht
    obtain ⟨file, -, rfl⟩ := List.mem_map.mp ht
    exact a.analyzeFile_never fs file
  rw [Batch.ofTasks_eq hrun, tasks, List.map_map]
  rfl

/-- Files that are analyzed in pieces, without an interruption, make the batch and the report of one piece. The report
holds the sorted findings of all files, and of each file what it holds when the file is analyzed alone. It is the report
of a run that selects the files. -/
theorem divided_run (a : Analyzer) (fs : FileSystem) (noted : List Diagnostic) {files : List Path} {d : Division}
    (h : d.tasks = tasks .never files) :
    let report := a.reportOf noted (d.run (a.analyzeFile fs))
    d.run (a.analyzeFile fs) = .ofTasks (a.analyzeFile fs) (tasks .never files) ∧
    report.Collects (a.settings.diagnostics ++ noted) (a.found fs) files ∧ report.isCancelled = false ∧
    (∀ p,
      let alone := a.reportOf noted (.ofTasks (a.analyzeFile fs) (tasks .never (files.filter (·.same p))))
      report.violations.filter (·.file.same p) = alone.violations ∧
      report.diagnostics.filter (·.file.same p) = alone.diagnostics.filter (·.file.same p)) ∧
    ∀ paths options, a.selectFiles fs paths options = .ok ⟨files, noted⟩ → a.run fs .never paths options = .ok report := by
  intro report
  have hbatch : d.run (a.analyzeFile fs) = .ofTasks (a.analyzeFile fs) (tasks .never files) := by
    rw [Division.run_eq, h]
  have hcollects (files : List Path) : (a.reportOf noted (.ofTasks (a.analyzeFile fs) (tasks .never files))).Collects
      (a.settings.diagnostics ++ noted) (a.found fs) files := by
    rw [a.items_never fs files]
    exact Report.collects_reportOf a noted rfl
  have hreport : report = a.reportOf noted (.ofTasks (a.analyzeFile fs) (tasks .never files)) := by rw [← hbatch]
  rw [hreport]
  refine ⟨hbatch, hcollects files, ?_, fun p => ?_, fun paths options hselect => ?_⟩
  · rw [a.items_never fs files]
    rfl
  · exact (hcollects files).filter (a.namesFile_found fs) (hcollects _)
  · rw [run, hselect]
    rfl

/-- A file is analyzed beside one whose only token is malformed, with an empty piece between them. -/
theorem divided_run_beside_malformed_file :
    let fs : FileSystem :=
      ⟨[], [(["A.cs"], .file (Utf8.encode "\"open")), (["B.cs"], .file (Utf8.encode "class b \x7b \x7d"))]⟩
    let files : List Path := [⟨"A.cs"⟩, ⟨"B.cs"⟩]
    let d : Division := .both (.piece [⟨⟨"A.cs"⟩, .never⟩]) (.both (.piece []) (.piece [⟨⟨"B.cs"⟩, .never⟩]))
    ∃ a, ofSettings {} .unknown = .ok a ∧ d.tasks = tasks .never files ∧
      let report := a.reportOf [] (d.run (a.analyzeFile fs))
      report.Collects (a.settings.diagnostics ++ []) (a.found fs) files ∧ report.isCancelled = false ∧
      let alone := a.reportOf [] (.ofTasks (a.analyzeFile fs) (tasks .never [⟨"B.cs"⟩]))
      report.violations.filter (·.file.same ⟨"B.cs"⟩) = alone.violations := by
  intro fs files d
  have hvalid : ({} : Settings).validate = .ok () := Except.eq_ok_of_isOk (by decide +kernel)
  obtain ⟨a, ha⟩ := exists_ofSettings hvalid (by decide) .unknown
  have hfiles : files.filter (·.same ⟨"B.cs"⟩) = [⟨"B.cs"⟩] := by decide
  have hrun := a.divided_run fs [] (show d.tasks = tasks .never files from rfl)
  have halone := (hrun.2.2.2.1 ⟨"B.cs"⟩).1
  rw [hfiles] at halone
  exact ⟨a, ha, rfl, hrun.2.1, hrun.2.2.1, halone⟩

end Analyzer

end CSharpStyle
