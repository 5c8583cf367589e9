import CSharpStyle.Cache.Document
import CSharpStyle.Finding.Failure
import CSharpStyle.Workspace.FileSystem

/-!
# Caches in files

A cache is held in memory and written to its file when it has changed. It is marked as changed by every
operation that makes it differ from the file, and the mark is taken off when it has been written.
-/

namespace CSharpStyle

structure FileCache where
  path : Path
  data : CacheData
  /-- The cache can differ from its file. -/
  isChanged : Bool
  deriving DecidableEq, Repr, Inhabited

namespace FileCache

def defaultPath : Path := ⟨".lintcs/cache.json"⟩

/-- An empty cache, whatever its file holds. -/
def empty (path : Path) (now : Timestamp) : FileCache := ⟨path, .empty now, false⟩

/-- Drops data of another version. -/
def migrated (c : FileCache) (now : Timestamp) : FileCache :=
  if c.data.version = CacheData.currentVersion then c else { c with data := .empty now, isChanged := true }

/-- The files and the cache behind an operation, and how it went. -/
structure Outcome where
  files : FileSystem
  cache : FileCache
  result : Except Failure Unit

/-- Takes what the file holds into the cache, or empties it if there is no file. A cache stays as it is if its file is
of no use. -/
def reload (c : FileCache) (fs : FileSystem) (now : Timestamp) : Outcome :=
  if !fs.exists? c.path then ⟨fs, { c with data := .empty now, isChanged := true }, .ok ()⟩
  else
    match fs.readText c.path with
    | .error e => ⟨fs, c, .error (.unreadableCache e)⟩
    | .ok text =>
      match CacheData.parse? text with
      | none => ⟨fs, c, .error .malformedCache⟩
      | some data => ⟨fs, { c with data }.migrated now, .ok ()⟩

/-- The cache behind a reload that succeeds. -/
def load (c : FileCache) (fs : FileSystem) (now : Timestamp) : Except Failure FileCache :=
  let loaded := c.reload fs now
  loaded.result.map fun _ => loaded.cache

/-- The cache that a file holds. -/
def ofFile (path : Path) (fs : FileSystem) (now : Timestamp) : Except Failure FileCache :=
  (empty path now).load fs now

/-- Makes the directory of a file. -/
def makeDirectory (fs : FileSystem) (p : Path) : Except FileError FileSystem :=
  match p.parent? with
  | some parent => if parent.text.isEmpty then .ok fs else fs.makeDirectories parent
  | none => .ok fs

/-- Writes the cache if it has changed. -/
def save (c : FileCache) (fs : FileSystem) (now : Timestamp) : Outcome :=
  if !c.isChanged then ⟨fs, c, .ok ()⟩
  else
    let c := { c with data := { c.data with updatedAt := now } }
    match makeDirectory fs c.path with
    | .error e => ⟨fs, c, .error (.cacheDirectory e)⟩
    | .ok prepared =>
      match prepared.write c.path (Utf8.encode c.data.print) with
      | .error e => ⟨prepared, c, .error (.unwritableCache e)⟩
      | .ok written => ⟨written, { c with isChanged := false }, .ok ()⟩

/-- Empties the cache and removes its file. -/
def clear (c : FileCache) (fs : FileSystem) (now : Timestamp) : Outcome :=
  let c := { c with data := .empty now, isChanged := true }
  if fs.exists? c.path then
    match fs.remove c.path with
    | .error e => ⟨fs, c, .error (.unremovableCache e)⟩
    | .ok removed => ⟨removed, c, .ok ()⟩
  else ⟨fs, c, .ok ()⟩

def countHit (c : FileCache) : FileCache := { c with data := c.data.countHit, isChanged := true }

/-- Keeps new results for a file. -/
def store (c : FileCache) (p : Path) (contentHash fingerprint : String) (results : FileReport)
    (now : Timestamp) : FileCache :=
  { c with data := c.data.store p ⟨contentHash, fingerprint, now, results⟩, isChanged := true }

/-- Drops the entries of files that are gone. -/
def cleanup (c : FileCache) (fs : FileSystem) : FileCache :=
  let kept := c.data.files.filter fun (p, _) => fs.exists? p
  { c with
    data := { c.data with files := kept }
    isChanged := c.isChanged || kept.length < c.data.files.length }

/-- The number of entries that `cleanup` drops. -/
def staleCount (c : FileCache) (fs : FileSystem) : Nat :=
  (c.data.files.filter fun (p, _) => !fs.exists? p).length

end FileCache

end CSharpStyle
