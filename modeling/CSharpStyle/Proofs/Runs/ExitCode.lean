import CSharpStyle.Proofs.Runs.Division
import Mathlib.Data.List.Induction

/-!
# Counts and exit codes

A report counts its violations when they are added, and an exit code looks at the counts and not at the violations. The
numbers are right in whatever way a report has come about, so that the exit code tells what the report holds.

* `SeverityCounts.reaching_ofViolations`: what counts say of a threshold.
* `Report.Operation.counts_apply`: no operation on a report gets its counts wrong.
* `Report.reportOf_eq_ofHistory`: what a run makes is a report with a history.
* `Report.exitCode_antitone`: a lower threshold does not lead to a lower exit code.
* `Report.exitCode_ofHistory`: what the counts and the exit code of a report say.
-/

namespace CSharpStyle

namespace SeverityCounts

/-- The number of violations of one severity. -/
def of (c : SeverityCounts) : Severity → Nat
  | .error => c.error
  | .warning => c.warning
  | .info => c.info

theorem of_count (c : SeverityCounts) (s t : Severity) : (c.count s).of t = c.of t + if s = t then 1 else 0 := by
  cases s <;> cases t <;> rfl

theorem reaching_count (c : SeverityCounts) (s threshold : Severity) :
    (c.count s).reaching threshold = c.reaching threshold + if s.reaches threshold then 1 else 0 := by
  cases s <;> cases threshold <;> simp [count, reaching, total, Severity.reaches, Severity.rank] <;> omega

theorem ofViolations_concat (vs : List Violation) (v : Violation) :
    ofViolations (vs ++ [v]) = (ofViolations vs).count v.severity := List.foldl_concat ..

theorem of_ofViolations (vs : List Violation) (s : Severity) :
    (ofViolations vs).of s = vs.countP fun v => v.severity = s := by
  induction vs using List.reverseRecOn with
  | nil => cases s <;> rfl
  | append_singleton vs v ih =>
    rw [ofViolations_concat, of_count, ih, List.countP_append, List.countP_singleton]
    simp only [decide_eq_true_eq]

theorem reaching_ofViolations (vs : List Violation) (threshold : Severity) :
    (ofViolations vs).reaching threshold = vs.countP fun v => v.severity.reaches threshold := by
  induction vs using List.reverseRecOn with
  | nil => cases threshold <;> rfl
  | append_singleton vs v ih =>
    rw [ofViolations_concat, reaching_count, ih, List.countP_append, List.countP_singleton]

/-- Fewer violations are at or above a higher threshold. -/
theorem reaching_antitone (c : SeverityCounts) {low high : Severity} (h : low.rank ≤ high.rank) :
    c.reaching high ≤ c.reaching low := by
  revert h
  cases low <;> cases high <;> simp [reaching, total, Severity.rank] <;> omega

end SeverityCounts

namespace Report

/-! ### Histories -/

/-- What can be done with a report. -/
inductive Operation
  | addViolation (v : Violation)
  | addDiagnostic (d : Diagnostic)
  | addFile (file : FileReport)
  | sort
  | setFiles (count : Nat)
  /-- The time that a run took is shown by no output, and a report does not keep it. -/
  | setTime (milliseconds : Nat)
  | setFingerprint (text : String)
  | cancel

namespace Operation

def apply (r : Report) : Operation → Report
  | addViolation v => r.addViolation v
  | addDiagnostic d => r.addDiagnostic d
  | addFile file => r.addFile file
  | sort => r.sorted
  | setFiles count => { r with files := count }
  | setTime _ => r
  | setFingerprint text => { r with fingerprint := some text }
  | cancel => { r with isCancelled := true }

/-- What an operation adds to a report. -/
def added : Operation → FileReport
  | addViolation v => { violations := [v] }
  | addDiagnostic d => { diagnostics := [d] }
  | addFile file => file
  | _ => {}

variable {r : Report}

/-- Every operation counts the violations that it adds, and no others. -/
theorem counts_apply (h : r.counts = .ofViolations r.violations) (o : Operation) :
    (o.apply r).counts = .ofViolations (o.apply r).violations := by
  cases o with
  | addViolation v => exact (congrArg (·.count v.severity) h).trans (SeverityCounts.ofViolations_concat ..).symm
  | addFile file =>
    simp only [apply, Report.addFile, h]
    exact List.foldl_append.symm
  | sort => exact h.trans (SeverityCounts.ofViolations_perm (perm_sortBy ..).symm)
  | addDiagnostic | setFiles | setTime | setFingerprint | cancel => exact h

theorem violations_apply (r : Report) (o : Operation) :
    (o.apply r).violations.Perm (r.violations ++ o.added.violations) := by
  cases o with
  | addViolation | addFile => exact .refl _
  | sort => exact (perm_sortBy ..).trans (.of_eq (List.append_nil _).symm)
  | addDiagnostic | setFiles | setTime | setFingerprint | cancel => exact .of_eq (List.append_nil _).symm

theorem diagnostics_apply (r : Report) (o : Operation) :
    (o.apply r).diagnostics.Perm (r.diagnostics ++ o.added.diagnostics) := by
  cases o with
  | addDiagnostic | addFile => exact .refl _
  | sort => exact (perm_sortBy ..).trans (.of_eq (List.append_nil _).symm)
  | addViolation | setFiles | setTime | setFingerprint | cancel => exact .of_eq (List.append_nil _).symm

end Operation

/-- The report on which these operations have been carried out, one after the other. -/
def ofHistory (history : List Operation) : Report := history.foldl Operation.apply {}

section History

variable (history : List Operation)

theorem ofHistory_concat (o : Operation) : ofHistory (history ++ [o]) = o.apply (ofHistory history) :=
  List.foldl_concat ..

theorem counts_ofHistory : (ofHistory history).counts = .ofViolations (ofHistory history).violations := by
  induction history using List.reverseRecOn with
  | nil => rfl
  | append_singleton history o ih =>
    rw [ofHistory_concat]
    exact o.counts_apply ih

theorem violations_ofHistory : (ofHistory history).violations.Perm (history.flatMap (·.added.violations)) := by
  induction history using List.reverseRecOn with
  | nil => exact .refl _
  | append_singleton history o ih =>
    rw [ofHistory_concat, List.flatMap_append, List.flatMap_singleton]
    exact (o.violations_apply _).trans (ih.append_right _)

theorem diagnostics_ofHistory : (ofHistory history).diagnostics.Perm (history.flatMap (·.added.diagnostics)) := by
  induction history using List.reverseRecOn with
  | nil => exact .refl _
  | append_singleton history o ih =>
    rw [ofHistory_concat, List.flatMap_append, List.flatMap_singleton]
    exact (o.diagnostics_apply _).trans (ih.append_right _)

end History

/-- What a run makes has a history: notes, then files, then what is said of the run as a whole. -/
theorem reportOf_eq_ofHistory (a : Analyzer) (noted : List Diagnostic) (batch : Batch FileReport) :
    a.reportOf noted batch =
      ofHistory ((a.settings.diagnostics ++ noted).map .addDiagnostic ++ batch.items.map .addFile ++
        (if batch.isInterrupted then [.cancel] else []) ++
        [.setFiles batch.items.length, .setFingerprint a.fingerprint, .sort]) := by
  simp only [ofHistory, List.foldl_append, List.foldl_map, Operation.apply, Analyzer.reportOf, foldl_addDiagnostic,
    foldl_addFile]
  cases batch.isInterrupted <;> rfl

/-! ### Exit codes -/

section ExitCode

variable {r : Report}

theorem hasKind_iff {kind : DiagnosticKind} : r.hasKind kind ↔ ∃ d ∈ r.diagnostics, d.kind = kind := by
  simp [hasKind]

theorem hasViolationsAt_iff (h : r.counts = .ofViolations r.violations) {threshold : Severity} :
    r.hasViolationsAt threshold ↔ ∃ v ∈ r.violations, threshold.rank ≤ v.severity.rank := by
  simp [hasViolationsAt, h, SeverityCounts.reaching_ofViolations, Severity.reaches, List.countP_pos_iff]

/-- A lower threshold does not lead to a lower exit code. -/
theorem exitCode_antitone (r : Report) {low high : Severity} (h : low.rank ≤ high.rank) :
    r.exitCode high ≤ r.exitCode low := by
  have hreaches : r.hasViolationsAt high → r.hasViolationsAt low := by
    simp only [hasViolationsAt, decide_eq_true_eq]
    exact fun hpos => Nat.lt_of_lt_of_le hpos (r.counts.reaching_antitone h)
  unfold exitCode
  by_cases hio : r.hasKind .io
  · rw [if_pos hio, if_pos hio]
  · rw [if_neg hio, if_neg hio]
    split <;> split <;> simp_all

end ExitCode

/-- In whatever way a report has come about, it holds what was added and counts the violations of each severity. Its
exit code is two if a file could not be read, otherwise one if a violation reaches the threshold or a file is malformed,
and otherwise zero; and it does not fall when the threshold does. -/
theorem exitCode_ofHistory (history : List Operation) :
    let r := ofHistory history
    r.violations.Perm (history.flatMap (·.added.violations)) ∧
    r.diagnostics.Perm (history.flatMap (·.added.diagnostics)) ∧
    (∀ s, r.counts.of s = r.violations.countP fun v => v.severity = s) ∧
    (∀ threshold : Severity,
      let unreadable := ∃ d ∈ r.diagnostics, d.kind = .io
      let failed := (∃ v ∈ r.violations, threshold.rank ≤ v.severity.rank) ∨
        ∃ d ∈ r.diagnostics, d.kind = .lexical ∨ d.kind = .structural
      (r.exitCode threshold = 2 ↔ unreadable) ∧ (r.exitCode threshold = 1 ↔ ¬unreadable ∧ failed) ∧
        (r.exitCode threshold = 0 ↔ ¬unreadable ∧ ¬failed)) ∧
    ∀ low high : Severity, low.rank ≤ high.rank → r.exitCode high ≤ r.exitCode low := by
  intro r
  have hcounts : r.counts = .ofViolations r.violations := counts_ofHistory history
  refine ⟨violations_ofHistory history, diagnostics_ofHistory history, fun s => ?_, fun threshold => ?_,
    fun low high h => r.exitCode_antitone h⟩
  · rw [hcounts, SeverityCounts.of_ofViolations]
  · intro unreadable failed
    have hio : r.hasKind .io ↔ unreadable := hasKind_iff
    have hfailed : (r.hasViolationsAt threshold || r.hasKind .lexical || r.hasKind .structural) ↔ failed := by
      rw [Bool.or_eq_true, Bool.or_eq_true, hasViolationsAt_iff hcounts, hasKind_iff, hasKind_iff, or_assoc,
        ← exists_or]
      simp only [failed, and_or_left]
    rw [exitCode]
    by_cases hunreadable : unreadable
    · rw [if_pos (hio.mpr hunreadable)]
      simp [hunreadable]
    · rw [if_neg (mt hio.mp hunreadable)]
      by_cases hfail : failed
      · rw [if_pos (hfailed.mpr hfail)]
        simp [hunreadable, hfail]
      · rw [if_neg (mt hfailed.mp hfail)]
        simp [hunreadable, hfail]

/-- A report that was sorted in between, and that holds a warning and doubtful settings. -/
theorem exitCode_ofHistory_warning :
    let doubtful : Diagnostic := ⟨.settings, ⟨"lint.yaml"⟩, none, none, "Doubtful"⟩
    let warning : Violation := ⟨"ClassName", .warning, ⟨"A.cs"⟩, 1, 7, "Class", none, none⟩
    let history : List Operation :=
      [.addDiagnostic doubtful, .sort, .addFile { violations := [warning] }, .setTime 5, .cancel]
    Severity.warning.rank ≤ Severity.error.rank ∧
      (ofHistory history).exitCode .error ≤ (ofHistory history).exitCode .warning ∧
      (ofHistory history).exitCode .warning = 1 ∧ (ofHistory history).exitCode .error = 0 := by
  intro doubtful warning history
  obtain ⟨hviolations, hdiagnostics, -, hcode, hantitone⟩ := exitCode_ofHistory history
  have hrank : Severity.warning.rank ≤ Severity.error.rank := by decide
  have hv (v : Violation) : v ∈ (ofHistory history).violations ↔ v = warning :=
    hviolations.mem_iff.trans List.mem_singleton
  have hd (d : Diagnostic) : d ∈ (ofHistory history).diagnostics ↔ d = doubtful :=
    hdiagnostics.mem_iff.trans List.mem_singleton
  refine ⟨hrank, hantitone .warning .error hrank, (hcode .warning).2.1.mpr ?_, (hcode .error).2.2.mpr ?_⟩
  · simp [hv, hd, warning, doubtful]
  · simp [hv, hd, warning, doubtful, Severity.rank]

end Report

end CSharpStyle
