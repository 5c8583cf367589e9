import CSharpStyle.CommandLine.Arguments
import CSharpStyle.Finding.Severity
import CSharpStyle.Rendering.Format
import CSharpStyle.Source.Path

/-!
# Commands

A command line names a command, or has none and asks for files to be checked. Once an option or a path has been
given, the name of a command is a path like any other.
-/

namespace CSharpStyle

structure CheckCommand where
  paths : List Path := []
  format : OutputFormat := .text
  /-- Violations of at least this severity make the check fail. -/
  threshold : Severity := .warning
  exclude : List String := []
  skipsIgnoreFiles : Bool := false
  usesCache : Bool := false
  cacheFile : Option Path := none
  deriving DecidableEq, Repr, Inhabited

/-- The paths that are searched, by default the working directory. -/
def CheckCommand.roots (c : CheckCommand) : List Path := if c.paths.isEmpty then [⟨"."⟩] else c.paths

inductive CacheAction
  | stats
  | clear
  | cleanup
  deriving DecidableEq, Repr, Inhabited

inductive Command
  | check (command : CheckCommand)
  | rules (enabledOnly : Bool)
  | explain (rule : String)
  | validateSettings (file : Option Path)
  | cache (action : CacheAction) (file : Option Path)
  deriving DecidableEq, Repr, Inhabited

/-- A command with what can be said of all commands. -/
structure Invocation where
  command : Command
  settingsFile : Option Path := none
  noColor : Bool := false
  deriving DecidableEq, Repr, Inhabited

namespace Invocation

def isNotEmpty (text : String) : Bool := text != ""

/-- A number of workers: digits with or without a sign, below `2 ^ 64`. -/
def isCount (text : String) : Bool :=
  let digits :=
    match text.toList with
    | '+' :: rest => rest
    | chars => chars
  !digits.isEmpty && digits.all Char.isDigit &&
    digits.foldl (fun n c => n * 10 + (c.toNat - '0'.toNat)) 0 < UInt64.size

/-- Options of all commands. -/
def commonOptions : List OptionSyntax :=
  [{ long := "verbose", letter := some 'v' }, { long := "config", letter := some 'c', accepts := some isNotEmpty },
   { long := "no-color" }, { long := "help", letter := some 'h' }]

def checkOptions : List OptionSyntax :=
  [{ long := "format", letter := some 'f', accepts := some fun t => (OutputFormat.ofName? t).isSome },
   { long := "severity-threshold", accepts := some fun t => (Severity.ofText? t).isSome },
   { long := "exclude", accepts := some fun _ => true, repeats := true }, { long := "no-ignore" },
   { long := "no-parallel" }, { long := "jobs", letter := some 'j', accepts := some isCount },
   { long := "cache" }, { long := "cache-file", accepts := some isNotEmpty }]

def checkSyntax : ArgumentSyntax := { options := checkOptions ++ commonOptions, acceptsOperand := isNotEmpty }

/-- Without a command, the version can be asked for. -/
def plainSyntax : ArgumentSyntax :=
  { checkSyntax with options := { long := "version", letter := some 'V' } :: checkSyntax.options }

def rulesSyntax : ArgumentSyntax :=
  { options := { long := "enabled-only" } :: commonOptions, maxOperands := some 0 }

def explainSyntax : ArgumentSyntax := { options := commonOptions, maxOperands := some 1 }

def settingsSyntax : ArgumentSyntax :=
  { options := commonOptions, maxOperands := some 1, acceptsOperand := isNotEmpty }

def cacheSyntax : ArgumentSyntax := { options := commonOptions, maxOperands := some 0, endsAtOperand := true }

def cacheActionSyntax : ArgumentSyntax :=
  { options := { long := "cache-file", accepts := some isNotEmpty } :: commonOptions, maxOperands := some 0 }

def path? (a : Arguments) (name : String) : Option Path := (a.value? name).map Path.mk

def make (a : Arguments) (command : Command) : Invocation := ⟨command, path? a "config", a.has "no-color"⟩

def check (a : Arguments) : Invocation :=
  make a (.check
    { paths := a.operands.map Path.mk
      format := ((a.value? "format").bind OutputFormat.ofName?).getD .text
      threshold := ((a.value? "severity-threshold").bind Severity.ofText?).getD .warning
      exclude := a.values "exclude", skipsIgnoreFiles := a.has "no-ignore", usesCache := a.has "cache"
      cacheFile := path? a "cache-file" })

def cacheAction? (name : String) : Option CacheAction :=
  match name with
  | "stats" => some .stats
  | "clear" => some .clear
  | "cleanup" => some .cleanup
  | _ => none

/-- The action behind `cache` with its options. -/
def cache (arguments : List String) : Except ArgumentStop Invocation := do
  let before ← cacheSyntax.read arguments
  match before.rest with
  | name :: rest =>
    match cacheAction? name with
    | some action =>
      let a ← cacheActionSyntax.read rest
      .ok (make a (.cache action (path? a "cache-file")))
    | none => .error .misuse
  | [] => .error .misuse

/-- What a command line asks for. -/
def ofArguments : List String → Except ArgumentStop Invocation
  | "check" :: rest => do .ok (check (← checkSyntax.read rest))
  | "rules" :: rest => do
    let a ← rulesSyntax.read rest
    .ok (make a (.rules (a.has "enabled-only")))
  | "explain" :: rest => do
    let a ← explainSyntax.read rest
    match a.operands with
    | [rule] => .ok (make a (.explain rule))
    | _ => .error .misuse
  | "validate-config" :: rest => do
    let a ← settingsSyntax.read rest
    .ok (make a (.validateSettings (a.operands.head?.map Path.mk)))
  | "cache" :: rest => cache rest
  | "help" :: _ => .error .help
  | arguments => do .ok (check (← plainSyntax.read arguments))

end Invocation

end CSharpStyle
