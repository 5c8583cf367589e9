import CSharpStyle.Format.Fields
import CSharpStyle.Format.YamlReader
import CSharpStyle.Settings.Basic
import CSharpStyle.Source.Line

/-!
# Settings as documents

Settings are read from a document in YAML, of which JSON is a part, or from a JSON value. Unknown fields do not
count, missing ones have their defaults. A text without content stands for the default settings.
-/

namespace CSharpStyle

namespace Yaml

/-- The entries of a mapping; an empty scalar stands for none. -/
def entries? : Yaml → Option (List (String × Yaml))
  | mapping entries => some entries
  | scalar s => if s.isEmpty then some [] else none
  | sequence _ => none

/-- The items of a sequence; an empty scalar stands for none. -/
def items? : Yaml → Option (List Yaml)
  | sequence items => some items
  | scalar s => if s.isEmpty then some [] else none
  | mapping _ => none

/-- The text of a scalar, whatever it could stand for. -/
def text? : Yaml → Option String
  | scalar s => some s.text
  | _ => none

def bool? : Yaml → Option Bool
  | scalar s => s.bool?
  | _ => none

def isNull : Yaml → Bool
  | scalar s => s.isNull
  | _ => false

def optional? {α : Type} (read : Yaml → Option α) (y : Yaml) : Option (Option α) :=
  if y.isNull then some none else (read y).map some

end Yaml

/-- The entries in the order of their names; of entries with one name the last counts. -/
def byName {α : Type} (entries : List (String × α)) : List (String × α) :=
  entries.foldl (fun sorted (name, value) => insertByName name value sorted) []

namespace RuleSettings

def ofYaml? (y : Yaml) : Option RuleSettings := do
  let entries ← y.entries?
  some
    { isEnabled := ← readField? entries "enabled" (some true) Yaml.bool?
      severity := ← readField? entries "severity" (some none) (Yaml.optional? fun y => y.text?.bind Severity.ofText?)
      pattern := ← readField? entries "pattern" (some none) (Yaml.optional? Yaml.text?) }

def ofJson? (j : JsonValue) : Option RuleSettings := do
  let entries ← j.fields? ["enabled", "severity", "pattern"] 3
  some
    { isEnabled := ← readField? entries "enabled" (some true) JsonValue.bool?
      severity := ← readField? entries "severity" (some none)
        (JsonValue.optional? (JsonValue.named? Severity.ofText?))
      pattern := ← readField? entries "pattern" (some none) (JsonValue.optional? JsonValue.string?) }

def toYaml (r : RuleSettings) : Yaml :=
  .mapping
    [("enabled", .bool r.isEnabled), ("severity", .ofOption (fun s => .string s.text) r.severity),
     ("pattern", .ofOption .string r.pattern)]

end RuleSettings

namespace PathSettings

def ofYaml? (y : Yaml) : Option PathSettings := do
  let entries ← y.entries?
  let defaults : PathSettings := {}
  some
    { patterns := ← readField? entries "patterns" (some defaults.patterns) fun y =>
        y.items?.bind fun items => items.mapM Yaml.text?
      ignoreFile := ← readField? entries "ignore_file" (some defaults.ignoreFile) (Yaml.optional? Yaml.text?) }

def ofJson? (j : JsonValue) : Option PathSettings := do
  let entries ← j.fields? ["patterns", "ignore_file"] 0
  let defaults : PathSettings := {}
  some
    { patterns := ← readField? entries "patterns" (some defaults.patterns) (JsonValue.list? JsonValue.string?)
      ignoreFile := ← readField? entries "ignore_file" (some defaults.ignoreFile)
        (JsonValue.optional? JsonValue.string?) }

def toYaml (p : PathSettings) : Yaml :=
  .mapping [("patterns", .sequence (p.patterns.map .string)), ("ignore_file", .ofOption .string p.ignoreFile)]

end PathSettings

namespace Settings

/-- Reads the value of each entry. -/
def readEntries? {α β : Type} (read : α → Option β) (entries : List (String × α)) :
    Option (List (String × β)) :=
  entries.mapM fun (name, value) => (read value).map (name, ·)

def ofYaml? (y : Yaml) : Option Settings := do
  let entries ← y.entries?
  some
    { version := ← readField? entries "version" (some supportedVersion) Yaml.text?
      paths := ← readField? entries "paths" (some {}) PathSettings.ofYaml?
      rules := ← readField? entries "rules" (some []) fun y =>
        y.entries?.bind fun entries => (readEntries? RuleSettings.ofYaml? entries).map byName }

def ofJson? (j : JsonValue) : Option Settings := do
  let entries ← j.fields? ["version", "paths", "rules"] 0
  some
    { version := ← readField? entries "version" (some supportedVersion) JsonValue.string?
      paths := ← readField? entries "paths" (some {}) PathSettings.ofJson?
      rules := ← readField? entries "rules" (some []) fun
        | .object entries => (readEntries? RuleSettings.ofJson? entries).map byName
        | _ => none }

def toYaml (s : Settings) : Yaml :=
  .mapping
    [("version", .string s.version), ("paths", s.paths.toYaml),
     ("rules", .mapping (s.rules.map fun (name, r) => (name, r.toYaml)))]

/-- The settings that a text contains, not yet validated. -/
def read? (text : String) : Option Settings :=
  if (trimmed text.toList).isEmpty then some {} else (Yaml.parse? text).bind ofYaml?

/-- The settings that a text contains. -/
def parse (text : String) : Except Failure Settings :=
  match read? text with
  | none => .error .malformedSettings
  | some s => s.validate.map fun _ => s

end Settings

end CSharpStyle
