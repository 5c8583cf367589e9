import CSharpStyle.Finding.Basic

/-!
# Reports

A report collects what was found in all files of a run, and counts the violations of each severity.

* The exit code tells, in this order, whether a file could not be read, whether a violation reaches a threshold
  or a file is malformed, or whether all is well.
-/

namespace CSharpStyle

/-- The numbers of violations of each severity. -/
structure SeverityCounts where
  error : Nat := 0
  warning : Nat := 0
  info : Nat := 0
  deriving DecidableEq, Repr, Inhabited

namespace SeverityCounts

def total (c : SeverityCounts) : Nat := c.error + c.warning + c.info

/-- The violations that are at least as severe as `threshold`. -/
def reaching (c : SeverityCounts) : Severity → Nat
  | .info => c.total
  | .warning => c.warning + c.error
  | .error => c.error

def count (c : SeverityCounts) : Severity → SeverityCounts
  | .error => { c with error := c.error + 1 }
  | .warning => { c with warning := c.warning + 1 }
  | .info => { c with info := c.info + 1 }

end SeverityCounts

structure Report where
  violations : List Violation := []
  diagnostics : List Diagnostic := []
  counts : SeverityCounts := {}
  /-- The number of files that were analyzed. -/
  files : Nat := 0
  /-- The run was interrupted before all files were analyzed. -/
  isCancelled : Bool := false
  /-- The fingerprint of the settings. -/
  fingerprint : Option String := none
  deriving DecidableEq, Repr, Inhabited

namespace Report

def addViolation (r : Report) (v : Violation) : Report :=
  { r with violations := r.violations ++ [v], counts := r.counts.count v.severity }

def addDiagnostic (r : Report) (d : Diagnostic) : Report := { r with diagnostics := r.diagnostics ++ [d] }

def addFile (r : Report) (file : FileReport) : Report :=
  { r with
    violations := r.violations ++ file.violations
    diagnostics := r.diagnostics ++ file.diagnostics
    counts := file.violations.foldl (fun c v => c.count v.severity) r.counts }

def hasViolations (r : Report) : Bool := !r.violations.isEmpty

/-- A violation is at least as severe as `threshold`. -/
def hasViolationsAt (r : Report) (threshold : Severity) : Bool := 0 < r.counts.reaching threshold

def hasKind (r : Report) (kind : DiagnosticKind) : Bool := r.diagnostics.any (·.kind = kind)

def ofRule (r : Report) (rule : String) : List Violation := r.violations.filter (·.rule == rule)

/-- Violations and diagnostics in the order of files and positions. -/
def sorted (r : Report) : Report :=
  { r with
    violations := sortBy Violation.order r.violations
    diagnostics := sortBy Diagnostic.order r.diagnostics }

def exitCode (r : Report) (threshold : Severity) : Nat :=
  if r.hasKind .io then 2
  else if r.hasViolationsAt threshold || r.hasKind .lexical || r.hasKind .structural then 1
  else 0

def toFileReport (r : Report) : FileReport := ⟨r.violations, r.diagnostics⟩

end Report

end CSharpStyle
