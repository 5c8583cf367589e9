import CSharpStyle.Finding.Basic
import CSharpStyle.Format.Fields

/-!
# Findings as JSON

The form in which the findings of a file are kept between runs.
-/

namespace CSharpStyle

/-- Lines and columns are smaller than this. -/
def positionLimit : Nat := UInt32.size

namespace Violation

def toJson (v : Violation) : JsonValue :=
  .object
    [("rule_id", .string v.rule), ("severity", .string v.severity.text), ("file_path", .string v.file.text),
     ("line", .natural v.line), ("column", .natural v.column), ("message", .string v.message),
     ("context", .ofOption .string v.context), ("suggested_fix", .ofOption .string v.fix)]

def ofJson? (j : JsonValue) : Option Violation := do
  let entries ← j.fields?
    ["rule_id", "severity", "file_path", "line", "column", "message", "context", "suggested_fix"] 8
  some
    { rule := ← readField? entries "rule_id" none JsonValue.string?
      severity := ← readField? entries "severity" none (JsonValue.named? Severity.ofText?)
      file := ⟨← readField? entries "file_path" none JsonValue.string?⟩
      line := ← readField? entries "line" none (JsonValue.below? positionLimit)
      column := ← readField? entries "column" none (JsonValue.below? positionLimit)
      message := ← readField? entries "message" none JsonValue.string?
      context := ← readField? entries "context" (some none) (JsonValue.optional? JsonValue.string?)
      fix := ← readField? entries "suggested_fix" (some none) (JsonValue.optional? JsonValue.string?) }

end Violation

namespace Diagnostic

def toJson (d : Diagnostic) : JsonValue :=
  .object
    [("kind", .string d.kind.name), ("file_path", .string d.file.text), ("line", .ofOption .natural d.line),
     ("column", .ofOption .natural d.column), ("message", .string d.message)]

def ofJson? (j : JsonValue) : Option Diagnostic := do
  let entries ← j.fields? ["kind", "file_path", "line", "column", "message"] 5
  some
    { kind := ← readField? entries "kind" none (JsonValue.named? DiagnosticKind.ofName?)
      file := ⟨← readField? entries "file_path" none JsonValue.string?⟩
      line := ← readField? entries "line" (some none) (JsonValue.optional? (JsonValue.below? positionLimit))
      column := ← readField? entries "column" (some none) (JsonValue.optional? (JsonValue.below? positionLimit))
      message := ← readField? entries "message" none JsonValue.string? }

end Diagnostic

namespace FileReport

def toJson (r : FileReport) : JsonValue :=
  .object
    [("violations", .array (r.violations.map Violation.toJson)),
     ("diagnostics", .array (r.diagnostics.map Diagnostic.toJson))]

def ofJson? (j : JsonValue) : Option FileReport := do
  let entries ← j.fields? ["violations", "diagnostics"] 2
  some
    { violations := ← readField? entries "violations" none (JsonValue.list? Violation.ofJson?)
      diagnostics := ← readField? entries "diagnostics" none (JsonValue.list? Diagnostic.ofJson?) }

end FileReport

end CSharpStyle
