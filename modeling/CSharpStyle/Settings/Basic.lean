import CSharpStyle.Convention.RuleSet
import CSharpStyle.Finding.Basic

/-!
# Settings

Settings choose the files and the rules of a run. A rule that is not mentioned is enabled with its default
severity and its built-in pattern.
-/

namespace CSharpStyle

/-- What settings say of one rule. -/
structure RuleSettings where
  isEnabled : Bool := true
  severity : Option Severity := none
  pattern : Option String := none
  deriving DecidableEq, Repr, Inhabited

structure PathSettings where
  /-- Patterns of excluded paths; a later pattern overrules an earlier one. -/
  patterns : List String := ["**/bin/**", "**/obj/**", "**/.git/**"]
  /-- The name of the files with further patterns. -/
  ignoreFile : Option String := some ".lintcsignore"
  deriving DecidableEq, Repr, Inhabited

structure Settings where
  version : String := "1.0"
  paths : PathSettings := {}
  /-- What is said of rules, in the order of their names. -/
  rules : List (String × RuleSettings) := []
  /-- The file from which the settings were read. -/
  source : Option Path := none
  deriving DecidableEq, Repr, Inhabited

/-- Enters a value in a list that is sorted by name, and replaces the one that stands there. -/
def insertByName {α : Type} (name : String) (value : α) : List (String × α) → List (String × α)
  | [] => [(name, value)]
  | (other, old) :: rest =>
    match compare name other with
    | .lt => (name, value) :: (other, old) :: rest
    | .eq => (name, value) :: rest
    | .gt => (other, old) :: insertByName name value rest

namespace Settings

def supportedVersion : String := "1.0"

/-- The file names under which settings are looked for. -/
def defaultFileNames : List String := ["lintcs.yaml", "lintcs.yml", ".lintcs.yaml"]

/-- Drops characters at both ends. -/
def trimBoth (drop : Char → Bool) (text : List Char) : List Char :=
  ((text.dropWhile drop).reverse.dropWhile drop).reverse

/-- The glob that a path pattern contains. -/
def globText (pattern : String) : String :=
  String.ofList (trimBoth (· == '/') (pattern.toList.dropWhile (· == '!')))

def checkPathPattern (pattern : String) : Except Failure Unit :=
  match Glob.parse (globText pattern) with
  | .ok _ => .ok ()
  | .error e => .error (.invalidPathPattern pattern e)

/-- The pattern of a naming rule has to be one. -/
def checkRule (name : String) (r : RuleSettings) (patterns : PatternReader := .regex) : Except Failure Unit :=
  match Rule.ofName? name, r.pattern with
  | some rule, some pattern =>
    if rule.isNaming && (patterns.read? pattern).isNone then .error (.invalidRulePattern name) else .ok ()
  | _, _ => .ok ()

/-- Why the settings cannot be used, if they cannot. -/
def validate (s : Settings) (patterns : PatternReader := .regex) : Except Failure Unit := do
  if s.version != supportedVersion then .error (.unsupportedVersion s.version)
  s.paths.patterns.forM checkPathPattern
  s.rules.forM fun (name, r) => checkRule name r patterns

/-- What is wrong with a rule's settings without making them useless. -/
def ruleWarning? (name : String) (r : RuleSettings) : Option String :=
  match Rule.ofName? name with
  | none => some s!"unknown rule '{name}' ignored"
  | some rule =>
    if r.pattern.isSome && !rule.isNaming then some s!"rule '{name}' does not take a pattern; it is ignored"
    else none

def warnings (s : Settings) : List String := s.rules.filterMap fun (name, r) => ruleWarning? name r

/-- The warnings as diagnostics of the settings file. -/
def diagnostics (s : Settings) : List Diagnostic :=
  let file := s.source.getD ⟨defaultFileNames.headD ""⟩
  s.warnings.map fun message => { kind := .settings, file, message }

/-- What is said of a rule. -/
def ruleSettings (s : Settings) (rule : Rule) : RuleSettings := (s.rules.lookup rule.name).getD {}

def isEnabled (s : Settings) (rule : Rule) : Bool := (s.ruleSettings rule).isEnabled

def severity (s : Settings) (rule : Rule) : Severity :=
  (s.ruleSettings rule).severity.getD rule.defaultSeverity

/-- The pattern that replaces the built-in one. -/
def pattern? (s : Settings) (rule : Rule) : Option String :=
  if rule.isNaming then (s.ruleSettings rule).pattern else none

/-- The enabled rules in the order of all rules. -/
def selections (s : Settings) : List Selection :=
  (Rule.all.filter s.isEnabled).map fun rule => ⟨rule, s.severity rule, s.pattern? rule⟩

/-! ## Changes -/

def addPathPattern (s : Settings) (pattern : String) : Settings :=
  { s with paths := { s.paths with patterns := s.paths.patterns ++ [pattern] } }

def setIgnoreFile (s : Settings) (name : String) : Settings :=
  { s with paths := { s.paths with ignoreFile := some name } }

/-- Changes what is said of a rule. -/
def changeRule (s : Settings) (rule : Rule) (change : RuleSettings → RuleSettings) : Settings :=
  { s with rules := insertByName rule.name (change (s.ruleSettings rule)) s.rules }

def disable (s : Settings) (rule : Rule) : Settings := s.changeRule rule ({ · with isEnabled := false })

def setSeverity (s : Settings) (rule : Rule) (severity : Severity) : Settings :=
  s.changeRule rule ({ · with severity := some severity })

def setPattern (s : Settings) (rule : Rule) (pattern : String) : Settings :=
  s.changeRule rule ({ · with pattern := some pattern })

end Settings

end CSharpStyle
