import CSharpStyle.Convention.Rule
import CSharpStyle.Pattern.Glob
import CSharpStyle.Workspace.FileSystem

/-!
# Failures

Why an operation could not be carried out at all. A file that cannot be read or understood is no failure but a
diagnostic of the report.
-/

namespace CSharpStyle

inductive FailureKind
  | settings
  | pattern
  | cache
  deriving DecidableEq, Repr, Inhabited

/-- A path pattern that is no glob. -/
structure PatternFailure where
  pattern : String
  error : GlobError
  deriving DecidableEq, Repr, Inhabited

def PatternFailure.message (f : PatternFailure) : String :=
  s!"Invalid pattern '{f.pattern}': {f.error.message}"

inductive Failure
  | unknownRule (name : String)
  | notANamingRule (rule : Rule)
  | unsupportedVersion (version : String)
  | invalidPathPattern (pattern : String) (error : GlobError)
  | invalidRulePattern (rule : String)
  | invalidPathFilter (failure : PatternFailure)
  | unreadableSettings (file : String) (error : FileError)
  | malformedSettingsFile (file : String)
  | malformedSettings
  | unreadableIgnoreFile (file : String) (error : FileError)
  | unknownFormat (name : String)
  | invalidNamePattern (pattern : String) (rule : Rule)
  | invalidFilterPattern (failure : PatternFailure)
  | unreadableCache (error : FileError)
  | malformedCache
  | cacheDirectory (error : FileError)
  | unwritableCache (error : FileError)
  | unremovableCache (error : FileError)
  deriving DecidableEq, Repr, Inhabited

namespace Failure

def kind : Failure → FailureKind
  | invalidNamePattern _ _ | invalidFilterPattern _ => .pattern
  | unreadableCache _ | malformedCache | cacheDirectory _ | unwritableCache _ | unremovableCache _ => .cache
  | _ => .settings

/-- What failed, without the kind of failure. -/
def detail : Failure → String
  | unknownRule name => s!"Unknown rule '{name}'"
  | notANamingRule rule => s!"{rule.name} is not a naming rule"
  | unsupportedVersion version =>
    s!"Unsupported configuration version: {version}. Supported versions: 1.0"
  | invalidPathPattern pattern error => s!"Invalid path pattern '{pattern}': {error.message}"
  | invalidRulePattern rule => s!"Invalid regex pattern for rule '{rule}': regex parse error"
  | invalidPathFilter failure => s!"Failed to create path filter: Pattern error: {failure.message}"
  | unreadableSettings file error => s!"Failed to read config file '{file}': {error.message}"
  | malformedSettingsFile file => s!"Failed to parse config file '{file}': malformed document"
  | malformedSettings => "Failed to parse config: malformed document"
  | unreadableIgnoreFile file error => s!"Failed to read ignore file '{file}': {error.message}"
  | unknownFormat name => s!"Unknown output format '{name}'. Available: text, json, sarif, github"
  | invalidNamePattern pattern rule => s!"Invalid pattern '{pattern}' for {rule.name}: regex parse error"
  | invalidFilterPattern failure => failure.message
  | unreadableCache error => s!"Failed to read cache file: {error.message}"
  | malformedCache => "Failed to parse cache file: malformed document"
  | cacheDirectory error => s!"Failed to create cache directory: {error.message}"
  | unwritableCache error => s!"Failed to write cache file: {error.message}"
  | unremovableCache error => s!"Failed to remove cache file: {error.message}"

def message (failure : Failure) : String :=
  match failure.kind with
  | .settings => "Configuration error: " ++ failure.detail
  | .pattern => "Pattern error: " ++ failure.detail
  | .cache => "Cache error: " ++ failure.detail

end Failure

/-- The rule of that name. -/
def Rule.named (name : String) : Except Failure Rule :=
  match ofName? name with
  | some rule => .ok rule
  | none => .error (.unknownRule name)

end CSharpStyle
