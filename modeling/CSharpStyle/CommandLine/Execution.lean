import CSharpStyle.Analysis.Validator
import CSharpStyle.CommandLine.Command
import CSharpStyle.Settings.File

/-!
# Carrying out commands

A command reads and changes files, writes to the standard output and to the standard error, and ends with an
exit code. The code 2 stands for failures, which leave no report.
-/

namespace CSharpStyle

/-- What a command writes, and how it ends. -/
structure Output where
  code : Nat := 0
  out : String := ""
  err : String := ""
  deriving DecidableEq, Repr, Inhabited

/-- The lines of an output, each with its line end. -/
def textOfLines (lines : List String) : String := String.join (lines.map (· ++ "\n"))

namespace Output

def ofFailure (failure : Failure) : Output := { code := 2, err := s!"Error: {failure.message}\n" }

def usage : String :=
  textOfLines
    ["Usage: lintcs [OPTIONS] [PATHS]...", "       lintcs check [OPTIONS] [PATHS]...",
     "       lintcs rules [--enabled-only]", "       lintcs explain <RULE_ID>",
     "       lintcs validate-config [CONFIG_FILE]",
     "       lintcs cache <stats|clear|cleanup> [--cache-file <CACHE_FILE>]"]

def ofStop : ArgumentStop → Output
  | .misuse => { code := 2, err := usage }
  | .help => { out := usage }
  | .version => { out := "lintcs 0.1.0\n" }

end Output

/-- Where and when a command is carried out. -/
structure Environment where
  now : Timestamp
  /-- The standard output is a terminal. -/
  isTerminal : Bool
  interrupted : Interruption

namespace Invocation

/-- The absolute path of the working directory. -/
def workingDirectory (fs : FileSystem) : Path := ⟨"/" ++ "/".intercalate fs.workingDirectory⟩

/-- The named settings, or those of the working directory. -/
def settings (i : Invocation) (fs : FileSystem) : Except Failure Settings :=
  Settings.discover fs i.settingsFile (workingDirectory fs)

def runCheck (i : Invocation) (c : CheckCommand) (env : Environment) (fs : FileSystem) :
    Except Failure (Output × FileSystem) := do
  let validator ← Validator.ofSettings (← i.settings fs)
  let validator ←
    if c.usesCache then validator.withCache (c.cacheFile.getD FileCache.defaultPath) fs env.now
    else .ok validator
  let outcome ← validator.validate fs env.interrupted c.roots
    { exclude := c.exclude, skipsIgnoreFiles := c.skipsIgnoreFiles } env.now
  let statistics :=
    match c.format, outcome.validator.cache with
    | .text, some cache => cache.data.statistics ++ "\n"
    | _, _ => ""
  .ok
    ({ code := outcome.report.exitCode c.threshold
       out := outcome.report.render c.format { useColors := !i.noColor && env.isTerminal }
       err := statistics }, outcome.files)

/-- A text with blanks behind it, so that it has at least `width` characters. -/
def padRight (width : Nat) (text : String) : String :=
  text ++ String.ofList (List.replicate (width - text.length) ' ')

def ruleLine (s : Settings) (rule : Rule) : String :=
  let status := if s.isEnabled rule then "on " else "off"
  s!"{status} {padRight 26 rule.name} [{(s.severity rule).text}] {rule.description}"

def runRules (i : Invocation) (enabledOnly : Bool) (fs : FileSystem) : Except Failure Output := do
  let s ← i.settings fs
  let shown := Rule.all.filter fun rule => !enabledOnly || s.isEnabled rule
  .ok { out := textOfLines (shown.map (ruleLine s)) }

def patternLines (rule : Rule) : List String :=
  match rule.defaultPattern? with
  | some pattern =>
    ["", s!"Pattern: {pattern}", s!"(override with \x60rules.{rule.name}.pattern\x60 in the configuration)"]
  | none => []

def runExplain (name : String) : Output :=
  match Rule.ofName? name with
  | none =>
    { code := 1
      err := textOfLines
        ([s!"Rule '{name}' not found", "", "Available rules:"] ++ Rule.all.map fun rule => s!"  - {rule.name}") }
  | some rule =>
    { out := textOfLines
        ([s!"Rule: {rule.name}", s!"Default severity: {rule.defaultSeverity.text}",
          s!"Applies to: {rule.target.text}", "", rule.description] ++ patternLines rule) }

/-- What is said of valid settings. -/
def settingsLines (s : Settings) : List String :=
  ["Configuration is valid", s!"  Rules: {Rule.all.length} total, {s.selections.length} enabled",
   s!"  Path patterns: {s.paths.patterns.length}"] ++ s.warnings.map fun warning => s!"  warning: {warning}"

def runValidateSettings (i : Invocation) (file : Option Path) (fs : FileSystem) : Output :=
  match (file.orElse fun _ => i.settingsFile).orElse fun _ => Settings.findFile? fs (workingDirectory fs) with
  | none =>
    let names := ", ".intercalate Settings.defaultFileNames
    { code := 2, err := s!"No configuration file found (looked for {names})\n" }
  | some file =>
    let title := s!"Validating configuration: {file.text}"
    match Settings.ofFile fs file with
    | .ok s => { out := textOfLines (title :: settingsLines s) }
    | .error failure =>
      { code := 2, out := textOfLines [title], err := s!"Configuration validation failed: {failure.message}\n" }

def noCacheFile (file : Path) : Output := { code := 1, out := s!"No cache file found at {file.text}\n" }

def statisticsLines (cache : FileCache) : List String :=
  ["Cache statistics", s!"  File: {cache.path.text}", s!"  {cache.data.statistics}",
   s!"  Created: {cache.data.createdAt.text}", s!"  Updated: {cache.data.updatedAt.text}"]

def runCache (action : CacheAction) (file : Path) (env : Environment) (fs : FileSystem) :
    Except Failure (Output × FileSystem) :=
  match action with
  | .stats =>
    if fs.exists? file then do
      .ok ({ out := textOfLines (statisticsLines (← FileCache.ofFile file fs env.now)) }, fs)
    else .ok (noCacheFile file, fs)
  | .clear => do
    let outcome := (FileCache.empty file env.now).clear fs env.now
    outcome.result
    .ok ({ out := s!"Cache cleared: {file.text}\n" }, outcome.files)
  | .cleanup =>
    if fs.exists? file then do
      let cache ← FileCache.ofFile file fs env.now
      let outcome := (cache.cleanup fs).save fs env.now
      outcome.result
      .ok ({ out := s!"Removed {cache.staleCount fs} stale cache entries\n" }, outcome.files)
    else .ok (noCacheFile file, fs)

/-- Carries out a command. -/
def run (i : Invocation) (env : Environment) (fs : FileSystem) : Except Failure (Output × FileSystem) :=
  match i.command with
  | .check command => i.runCheck command env fs
  | .rules enabledOnly => (i.runRules enabledOnly fs).map (·, fs)
  | .explain rule => .ok (runExplain rule, fs)
  | .validateSettings file => .ok (i.runValidateSettings file fs, fs)
  | .cache action file => runCache action (file.getD FileCache.defaultPath) env fs

/-- Carries out a command or tells its failure. A failed command leaves the files as they were. -/
def carryOut (i : Invocation) (env : Environment) (fs : FileSystem) : Output × FileSystem :=
  match i.run env fs with
  | .ok result => result
  | .error failure => (Output.ofFailure failure, fs)

/-! ## The files that matter -/

/-- The file of the cache, if the command uses one. No other file is changed. -/
def cacheFile? (i : Invocation) : Option Path :=
  match i.command with
  | .check c => if c.usesCache then some (c.cacheFile.getD FileCache.defaultPath) else none
  | .cache _ file => some (file.getD FileCache.defaultPath)
  | _ => none

/-- The files that can be read before files are selected. -/
def namedFiles (i : Invocation) (fs : FileSystem) : List Path :=
  let named :=
    match i.command with
    | .validateSettings (some file) => [file]
    | _ => []
  named ++ i.settingsFile.toList ++ i.cacheFile?.toList ++
    Settings.defaultFileNames.map (workingDirectory fs).join

/-- The paths that are searched for source files. -/
def roots (i : Invocation) : List Path :=
  match i.command with
  | .check c => c.roots
  | _ => []

/-- The files that are remembered by the cache. -/
def rememberedFiles (i : Invocation) (env : Environment) (fs : FileSystem) : List Path :=
  match i.cacheFile? with
  | none => []
  | some file => ((FileCache.ofFile file fs env.now).toOption.map fun c => c.data.files.map (·.1)).getD []

end Invocation

/-- Carries out a command line. -/
def runCommandLine (arguments : List String) (env : Environment) (fs : FileSystem) : Output × FileSystem :=
  match Invocation.ofArguments arguments with
  | .error stop => (Output.ofStop stop, fs)
  | .ok invocation => invocation.carryOut env fs

end CSharpStyle
