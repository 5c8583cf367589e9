import CSharpStyle.Format.Json
import CSharpStyle.Rendering.Record

/-!
# Records as JSON and as SARIF

Both formats list one object for each record. Keys are written in alphabetical order.
-/

namespace CSharpStyle

namespace JsonFormat

def recordValue (r : Record) : JsonValue :=
  .object
    [("column", .ofOption .natural r.column), ("file", .string r.file.text), ("line", .ofOption .natural r.line),
     ("message", .string r.message), ("rule", .string r.rule), ("severity", .string r.severity.text)]

def render (options : RenderOptions) (report : Report) : String :=
  (JsonValue.array ((report.records options).map recordValue)).print ++ "\n"

end JsonFormat

namespace SarifFormat

def level : Severity → String
  | .error => "error"
  | .warning => "warning"
  | .info => "note"

/-- A file as a reference, which has no backslashes. -/
def reference (file : Path) : String :=
  String.ofList (file.text.toList.map fun c => if c = '\\' then '/' else c)

/-- An object with a text. -/
def textObject (text : String) : JsonValue := .object [("text", .string text)]

/-- Where a record belongs; a record for a whole file stands at its beginning. -/
def location (r : Record) : JsonValue :=
  .object
    [("physicalLocation", .object
      [("artifactLocation", .object [("uri", .string (reference r.file))]),
       ("region", .object
         [("startColumn", .natural (r.column.getD 1)), ("startLine", .natural (r.line.getD 1))])])]

def fixes (r : Record) : List (String × JsonValue) :=
  match r.suggestion with
  | some suggestion => [("fixes", .array [.object [("description", textObject suggestion)]])]
  | none => []

def resultValue (r : Record) : JsonValue :=
  .object
    (fixes r ++
      [("level", .string (level r.severity)), ("locations", .array [location r]),
       ("message", textObject r.message), ("ruleId", .string r.rule)])

def tool : JsonValue :=
  .object [("driver", .object [("name", .string "lintcs"), ("version", .string "0.1.0")])]

def document (records : List Record) : JsonValue :=
  .object
    [("$schema", .string "https://json.schemastore.org/sarif-2.1.0.json"),
     ("runs", .array [.object [("results", .array (records.map resultValue)), ("tool", tool)]]),
     ("version", .string "2.1.0")]

def render (options : RenderOptions) (report : Report) : String :=
  (document (report.records options)).print ++ "\n"

end SarifFormat

end CSharpStyle
