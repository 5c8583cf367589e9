import CSharpStyle.Analysis.Analyzer
import CSharpStyle.Analysis.Batch
import CSharpStyle.Cache.Store
import CSharpStyle.Finding.Report

/-!
# Runs

A run analyzes the selected files and puts their findings together in one report. With a cache, the findings of
unchanged files are taken from it, and new findings are kept.
-/

namespace CSharpStyle

/-- What a file contributes to a run with a cache. -/
inductive Contribution
  /-- The findings were in the cache. -/
  | kept (report : FileReport)
  | new (file : Path) (contentHash : String) (report : FileReport)
  | unreadable (report : FileReport)
  deriving DecidableEq, Repr, Inhabited

namespace Contribution

def report : Contribution → FileReport
  | kept report | new _ _ report | unreadable report => report

/-- Enters a contribution in the cache. -/
def record (fingerprint : String) (now : Timestamp) (c : FileCache) : Contribution → FileCache
  | kept _ => c.countHit
  | new file contentHash report => c.store file contentHash fingerprint report now
  | unreadable _ => c

end Contribution

namespace Analyzer

/-- The report of a run. -/
def reportOf (a : Analyzer) (diagnostics : List Diagnostic) (batch : Batch FileReport) : Report :=
  let noted := (a.settings.diagnostics ++ diagnostics).foldl Report.addDiagnostic {}
  let filled := batch.items.foldl Report.addFile noted
  { filled with
    files := batch.items.length
    isCancelled := batch.isInterrupted
    fingerprint := some a.fingerprint }.sorted

/-- One task for each file. -/
def tasks (interrupted : Interruption) (files : List Path) : List Task := files.map fun file => ⟨file, interrupted⟩

def run (a : Analyzer) (fs : FileSystem) (interrupted : Interruption) (paths : List Path)
    (options : RunOptions) : Except Failure Report := do
  let selection ← a.selectFiles fs paths options
  .ok (a.reportOf selection.diagnostics (.ofTasks (a.analyzeFile fs) (tasks interrupted selection.files)))

/-- What a file contributes when findings are looked up in a cache. -/
def contribution (a : Analyzer) (fs : FileSystem) (data : CacheData) (interrupted : Interruption)
    (file : Path) : Option Contribution :=
  match fs.readSource file with
  | .error report => some (.unreadable report)
  | .ok source =>
    let hash := contentHash source
    match data.lookup? file hash a.fingerprint with
    | some report => some (.kept report)
    | none => (a.analyzeSource interrupted file source).map (.new file hash)

/-- The report on what the files contributed, and the cache with what is new. -/
def conclude (a : Analyzer) (diagnostics : List Diagnostic) (cache : FileCache) (now : Timestamp)
    (batch : Batch Contribution) : Report × FileCache :=
  (a.reportOf diagnostics ⟨batch.items.map (·.report), batch.isInterrupted⟩,
    batch.items.foldl (Contribution.record a.fingerprint now) cache)

def runCached (a : Analyzer) (fs : FileSystem) (interrupted : Interruption) (paths : List Path)
    (options : RunOptions) (cache : FileCache) (now : Timestamp) : Except Failure (Report × FileCache) := do
  let selection ← a.selectFiles fs paths options
  .ok (a.conclude selection.diagnostics cache now
    (.ofTasks (a.contribution fs cache.data) (tasks interrupted selection.files)))

end Analyzer

end CSharpStyle
