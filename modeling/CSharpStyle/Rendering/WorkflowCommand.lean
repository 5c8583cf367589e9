import CSharpStyle.Rendering.Record

/-!
# Workflow commands

Commands by which a build service marks lines of a source file, one for each record. Characters that would end
a command or one of its properties are written as percent codes.
-/

namespace CSharpStyle.WorkflowCommand

def level : Severity → String
  | .error => "error"
  | .warning => "warning"
  | .info => "notice"

/-- A character of a message. -/
def escapedInData (c : Char) : List Char :=
  match c with
  | '%' => ['%', '2', '5']
  | '\r' => ['%', '0', 'D']
  | '\n' => ['%', '0', 'A']
  | c => [c]

/-- A character of a property. -/
def escapedInProperty (c : Char) : List Char :=
  match c with
  | ':' => ['%', '3', 'A']
  | ',' => ['%', '2', 'C']
  | c => escapedInData c

def data (text : String) : String := String.ofList (text.toList.flatMap escapedInData)

def property (text : String) : String := String.ofList (text.toList.flatMap escapedInProperty)

/-- A property with a number, if there is one. -/
def numberProperty (name : String) : Option Nat → String
  | some n => s!",{name}={n}"
  | none => ""

def properties (r : Record) : String :=
  s!"file={property r.file.text}" ++ numberProperty "line" r.line ++ numberProperty "col" r.column ++
    s!",title={property r.rule}"

def command (r : Record) : String := s!"::{level r.severity} {properties r}::{data r.message}\n"

def render (options : RenderOptions) (report : Report) : String :=
  String.join ((report.records options).map command)

end CSharpStyle.WorkflowCommand
