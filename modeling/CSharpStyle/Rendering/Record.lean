import CSharpStyle.Finding.Report

/-!
# Records

A report is rendered as one ordered list of records. Every violation that is severe enough and every diagnostic
makes one record, and all formats list the records in this order.
-/

namespace CSharpStyle

structure Record where
  file : Path
  line : Option Nat
  column : Option Nat
  /-- The name of the rule, or of the kind of diagnostic. -/
  rule : String
  severity : Severity
  message : String
  context : Option String
  suggestion : Option String
  isDiagnostic : Bool
  deriving DecidableEq, Repr, Inhabited

namespace Record

def ofViolation (v : Violation) : Record :=
  { file := v.file, line := some v.line, column := some v.column, rule := v.rule, severity := v.severity
    message := v.message, context := v.context, suggestion := v.fix, isDiagnostic := false }

def ofDiagnostic (d : Diagnostic) : Record :=
  { file := d.file, line := d.line, column := d.column, rule := d.kind.name, severity := d.severity
    message := d.message, context := none, suggestion := none, isDiagnostic := true }

/-- By file, line, column, rule and message; a record for a whole file comes first. -/
def order (r s : Record) : Ordering :=
  (r.file.order s.file).then ((compare (r.line.getD 0) (s.line.getD 0)).then
    ((compare (r.column.getD 0) (s.column.getD 0)).then
      ((compare r.rule s.rule).then (compare r.message s.message))))

/-- Line and column, as far as they are known. -/
def place (r : Record) : String :=
  match r.line, r.column with
  | some line, some column => s!"{line}:{column}"
  | some line, none => toString line
  | none, _ => "-"

end Record

structure RenderOptions where
  /-- Only texts for readers are colored. -/
  useColors : Bool := true
  showContext : Bool := true
  showSuggestions : Bool := true
  /-- Violations below this severity are left out. -/
  minSeverity : Option Severity := none
  deriving DecidableEq, Repr, Inhabited

/-- The records of a report in order. -/
def Report.records (r : Report) (options : RenderOptions) : List Record :=
  let shown := r.violations.filter fun v => options.minSeverity.all v.severity.reaches
  sortBy Record.order (shown.map .ofViolation ++ r.diagnostics.map .ofDiagnostic)

end CSharpStyle
