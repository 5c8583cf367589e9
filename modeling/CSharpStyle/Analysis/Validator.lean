import CSharpStyle.Analysis.Run
import CSharpStyle.Rendering.Format

/-!
# Validators

A validator is an analyzer that may have a cache. After each run the cache is written to its file, and a run
does not fail because that is not possible.
-/

namespace CSharpStyle

structure Validator where
  analyzer : Analyzer
  cache : Option FileCache

namespace Validator

def ofSettings (settings : Settings) : Except Failure Validator := do
  .ok ⟨← Analyzer.ofSettings settings .unknown, none⟩

/-- The validator with the cache that a file holds. -/
def withCache (v : Validator) (path : Path) (fs : FileSystem) (now : Timestamp) : Except Failure Validator := do
  .ok { v with cache := some (← FileCache.ofFile path fs now) }

/-- What a run leaves behind. -/
structure RunOutcome where
  report : Report
  validator : Validator
  files : FileSystem

/-- Writes the cache, if there is one and it has changed. -/
def saveCache (v : Validator) (fs : FileSystem) (now : Timestamp) : FileSystem × Validator × Except Failure Unit :=
  match v.cache with
  | none => (fs, v, .ok ())
  | some cache =>
    let outcome := cache.save fs now
    (outcome.files, { v with cache := some outcome.cache }, outcome.result)

/-- Empties the cache, if there is one. -/
def clearCache (v : Validator) (fs : FileSystem) (now : Timestamp) : FileSystem × Validator × Except Failure Unit :=
  match v.cache with
  | none => (fs, v, .ok ())
  | some cache =>
    let outcome := cache.clear fs now
    (outcome.files, { v with cache := some outcome.cache }, outcome.result)

def validate (v : Validator) (fs : FileSystem) (interrupted : Interruption) (paths : List Path)
    (options : RunOptions) (now : Timestamp) : Except Failure RunOutcome := do
  let (report, after) ←
    match v.cache with
    | some cache => do
      let (report, cache) ← v.analyzer.runCached fs interrupted paths options cache now
      pure (report, { v with cache := some cache })
    | none => do pure (← v.analyzer.run fs interrupted paths options, v)
  let (files, validator, _) := after.saveCache fs now
  .ok ⟨report, validator, files⟩

/-- Validates one file without the cache. -/
def validateFile (v : Validator) (fs : FileSystem) (interrupted : Interruption) (file : Path) :
    Except Failure Report :=
  v.analyzer.run fs interrupted [file] {}

end Validator

end CSharpStyle
