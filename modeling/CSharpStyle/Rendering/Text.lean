import CSharpStyle.Rendering.Record
import CSharpStyle.Rendering.Style

/-!
# Text for readers

The records are grouped by file under a heading, and a line at the end sums them up.
-/

namespace CSharpStyle.TextFormat

/-- Adds a record to those of its file, in a list that is sorted by path. A file is named as its first record names
it. -/
def enter (r : Record) : List (Path × List Record) → List (Path × List Record)
  | [] => [(r.file, [r])]
  | (file, records) :: others =>
    match r.file.order file with
    | .lt => (r.file, [r]) :: (file, records) :: others
    | .eq => (file, records ++ [r]) :: others
    | .gt => (file, records) :: enter r others

/-- The records of each file, sorted by the paths of the files. -/
def groups (records : List Record) : List (Path × List Record) :=
  records.foldl (fun groups r => enter r groups) []

def contextLine (options : RenderOptions) (r : Record) : String :=
  match options.showContext, r.context with
  | true, some context => TextStyle.dim.paint options.useColors s!"    | {context}" ++ "\n"
  | _, _ => ""

def suggestionLine (options : RenderOptions) (r : Record) : String :=
  match options.showSuggestions, r.suggestion with
  | true, some suggestion => s!"    = help: {suggestion}\n"
  | _, _ => ""

def recordText (options : RenderOptions) (r : Record) : String :=
  let place := TextStyle.dim.paint options.useColors r.place
  let severity := (TextStyle.ofSeverity r.severity).paint options.useColors r.severity.text
  s!"  {place} {r.rule} [{severity}] {r.message}\n" ++ contextLine options r ++ suggestionLine options r

def groupText (options : RenderOptions) (file : Path) (records : List Record) : String :=
  TextStyle.bold.paint options.useColors file.text ++ "\n" ++
    String.join (records.map (recordText options)) ++ "\n"

/-- A number of things. -/
def plural (n : Nat) (word : String) : String := if n = 1 then s!"{n} {word}" else s!"{n} {word}s"

/-- The number of violations of a severity among the records. -/
def countOf (records : List Record) (severity : Severity) : Nat :=
  records.countP fun r => !r.isDiagnostic && r.severity = severity

/-- The numbers that are not zero, in words. -/
def summaryParts (options : RenderOptions) (records : List Record) : List String :=
  let part (n : Nat) (style : TextStyle) (words : String) :=
    if n = 0 then [] else [style.paint options.useColors words]
  let errors := countOf records .error
  let warnings := countOf records .warning
  let infos := countOf records .info
  let diagnostics := records.countP (·.isDiagnostic)
  part errors .red (plural errors "error") ++ part warnings .yellow (plural warnings "warning") ++
    part infos .cyan s!"{infos} info" ++ part diagnostics .red (plural diagnostics "diagnostic")

def summary (options : RenderOptions) (report : Report) (records : List Record) : String :=
  let parts := summaryParts options records
  let counts :=
    if parts.isEmpty then TextStyle.green.paint options.useColors "0 violations" else ", ".intercalate parts
  let title := TextStyle.bold.paint options.useColors "Summary:"
  let files := plural report.files "file"
  let mark := if report.isCancelled then " (cancelled)" else ""
  s!"{title} {counts} in {files}{mark}\n"

def render (options : RenderOptions) (report : Report) : String :=
  let records := report.records options
  let nothing :=
    if records.isEmpty then TextStyle.green.paint options.useColors "No style violations found" ++ "\n" else ""
  nothing ++ String.join ((groups records).map fun (file, records) => groupText options file records) ++
    summary options report records

end CSharpStyle.TextFormat
