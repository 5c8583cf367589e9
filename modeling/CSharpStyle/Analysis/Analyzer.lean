import CSharpStyle.Analysis.FileAnalysis
import CSharpStyle.Settings.Fingerprint
import CSharpStyle.Workspace.PathFilter

/-!
# Analyzers

An analyzer is made from settings that have been validated. It selects the files of a run and analyzes a single
file.
-/

namespace CSharpStyle

structure Analyzer where
  settings : Settings
  filter : PathFilter
  files : FileAnalyzer

/-- What a run may be told beyond the settings. -/
structure RunOptions where
  maxFiles : Option Nat := none
  /-- Further patterns of excluded paths. -/
  exclude : List String := []
  /-- Ignore files are not looked at. -/
  skipsIgnoreFiles : Bool := false
  deriving DecidableEq, Repr, Inhabited

/-- The files of a run, and what is to be said of paths that lead nowhere. -/
structure FileSelection where
  files : List Path := []
  diagnostics : List Diagnostic := []
  deriving DecidableEq, Repr, Inhabited

/-- Drops each item that is equal to the one before it. -/
def dropRepeated {α : Type} (equal : α → α → Bool) : List α → List α
  | [] => []
  | a :: rest => a :: dropFrom a rest
where
  /-- The items behind `a`. -/
  dropFrom (a : α) : List α → List α
    | [] => []
    | b :: rest => if equal a b then dropFrom a rest else b :: dropFrom b rest

/-- The text of a source file. Bytes that are no text are replaced, and a byte order mark is dropped. -/
def sourceText (bytes : List UInt8) : String :=
  let text := Utf8.decodeLossy bytes
  match text.toList with
  | '\ufeff' :: rest => String.ofList rest
  | _ => text

/-- The text of a source file, or the report that it cannot be read. -/
def FileSystem.readSource (fs : FileSystem) (p : Path) : Except FileReport String :=
  match fs.read p with
  | .ok bytes => .ok (sourceText bytes)
  | .error e =>
    .error (.ofDiagnostic { kind := .io, file := p, message := s!"failed to read file: {e.message}" })

namespace Analyzer

/-- The settings have to be valid for the reader of patterns with which their rules are prepared. -/
def ofSettings (settings : Settings) (symbols : Symbols) (patterns : PatternReader := .regex) :
    Except Failure Analyzer := do
  settings.validate patterns
  let filter ← (PathFilter.ofPatterns settings.paths.patterns settings.paths.ignoreFile).mapError .invalidPathFilter
  let rules ← RuleSet.ofSelections settings.selections patterns
  .ok ⟨settings, filter, rules, symbols⟩

def fingerprint (a : Analyzer) : String := a.settings.fingerprint

def enabledRules (a : Analyzer) : List Rule := a.files.rules.rules

/-- Analyzes a source text as that of a file. -/
def analyzeSource (a : Analyzer) (interrupted : Interruption) (file : Path) (source : String) :
    Option FileReport :=
  a.files.analyze interrupted file source

def analyzeFile (a : Analyzer) (fs : FileSystem) (interrupted : Interruption) (file : Path) :
    Option FileReport :=
  match fs.readSource file with
  | .ok source => a.analyzeSource interrupted file source
  | .error report => some report

/-- The path filter of a run. -/
def filterFor (a : Analyzer) (options : RunOptions) : Except Failure PathFilter :=
  let filter := if options.skipsIgnoreFiles then a.filter.withoutIgnoreFiles else a.filter
  (options.exclude.foldlM PathFilter.add filter).mapError .invalidFilterPattern

/-- The files that one path stands for. -/
def selectPath (fs : FileSystem) (filter : PathFilter) (p : Path) : Except Failure FileSelection := do
  if fs.isDirectory p then .ok { files := ← filter.findFiles fs p }
  else if fs.isFile p then
    if !PathFilter.isSource p then .ok {}
    else if ← filter.selects fs (p.parent?.getD ⟨""⟩) p then .ok { files := [p] }
    else .ok {}
  else
    .ok { diagnostics := [{ kind := .io, file := p, message := "path does not exist or is not accessible" }] }

/-- The files of a run in order and without repetition, at most as many as the options allow. -/
def selectFiles (a : Analyzer) (fs : FileSystem) (paths : List Path) (options : RunOptions) :
    Except Failure FileSelection := do
  let filter ← a.filterFor options
  let selected ← paths.mapM (selectPath fs filter)
  let files := dropRepeated Path.same (sortBy Path.order (selected.flatMap (·.files)))
  .ok
    { files := options.maxFiles.elim files files.take
      diagnostics := selected.flatMap (·.diagnostics) }

end Analyzer

end CSharpStyle
