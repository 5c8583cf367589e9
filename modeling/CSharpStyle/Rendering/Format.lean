import CSharpStyle.Finding.Failure
import CSharpStyle.Rendering.Structured
import CSharpStyle.Rendering.Text
import CSharpStyle.Rendering.WorkflowCommand
import CSharpStyle.Unicode.LowercaseText

/-!
# Output formats
-/

namespace CSharpStyle

inductive OutputFormat
  | text
  | json
  | sarif
  | github
  deriving DecidableEq, Repr, Inhabited

namespace OutputFormat

def all : List OutputFormat := [text, json, sarif, github]

def name : OutputFormat → String
  | text => "text"
  | json => "json"
  | sarif => "sarif"
  | github => "github"

def ofName? (name : String) : Option OutputFormat := all.find? (·.name == name)

/-- The format of that name in any case of letters. Text has a second name. -/
def named (name : String) : Except Failure OutputFormat :=
  let lower := Unicode.lowercaseText name
  match if lower == "human" then some text else ofName? lower with
  | some format => .ok format
  | none => .error (.unknownFormat lower)

end OutputFormat

/-- The report in a format. -/
def Report.render (r : Report) (format : OutputFormat) (options : RenderOptions) : String :=
  match format with
  | .text => TextFormat.render options r
  | .json => JsonFormat.render options r
  | .sarif => SarifFormat.render options r
  | .github => WorkflowCommand.render options r

end CSharpStyle
