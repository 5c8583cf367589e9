import CSharpStyle.Finding.Severity
import CSharpStyle.Source.Path

/-!
# Violations and diagnostics

A violation says that a rule is not kept at a place of a file. A diagnostic says that a file could not be
read, or not be understood, or that something is wrong with the settings.
-/

namespace CSharpStyle

structure Violation where
  rule : String
  severity : Severity
  file : Path
  line : Nat
  column : Nat
  message : String
  /-- The trimmed source line. -/
  context : Option String := none
  fix : Option String := none
  deriving DecidableEq, Repr, Inhabited

inductive DiagnosticKind
  | lexical
  | structural
  | io
  | settings
  deriving DecidableEq, Repr, Inhabited

namespace DiagnosticKind

def name : DiagnosticKind → String
  | lexical => "LexError"
  | structural => "ParseError"
  | io => "IoError"
  | settings => "ConfigWarning"

def all : List DiagnosticKind := [lexical, structural, io, settings]

def ofName? (name : String) : Option DiagnosticKind := all.find? (·.name == name)

def rank : DiagnosticKind → Nat
  | lexical => 0
  | structural => 1
  | io => 2
  | settings => 3

def severity : DiagnosticKind → Severity
  | settings => .warning
  | lexical | structural | io => .error

end DiagnosticKind

structure Diagnostic where
  kind : DiagnosticKind
  file : Path
  line : Option Nat := none
  column : Option Nat := none
  message : String
  deriving DecidableEq, Repr, Inhabited

namespace Violation

/-- By file, line, column, rule and message. -/
def order (v w : Violation) : Ordering :=
  (v.file.order w.file).then ((compare v.line w.line).then ((compare v.column w.column).then
    ((compare v.rule w.rule).then (compare v.message w.message))))

end Violation

namespace Diagnostic

def severity (d : Diagnostic) : Severity := d.kind.severity

/-- By file, line, column, kind and message; a diagnostic for a whole file comes first. -/
def order (d e : Diagnostic) : Ordering :=
  (d.file.order e.file).then ((compare (d.line.getD 0) (e.line.getD 0)).then
    ((compare (d.column.getD 0) (e.column.getD 0)).then
      ((compare d.kind.rank e.kind.rank).then (compare d.message e.message))))

end Diagnostic

/-- What was found in one file, in the order in which it was found. -/
structure FileReport where
  violations : List Violation := []
  diagnostics : List Diagnostic := []
  deriving DecidableEq, Repr, Inhabited

namespace FileReport

def ofDiagnostic (d : Diagnostic) : FileReport := { diagnostics := [d] }

def isClean (r : FileReport) : Bool := r.violations.isEmpty && r.diagnostics.isEmpty

end FileReport

/-- Sorts by an order and keeps what is equal under it in place. -/
def sortBy {α : Type} (order : α → α → Ordering) (items : List α) : List α :=
  items.mergeSort fun a b => order a b != .gt

end CSharpStyle
