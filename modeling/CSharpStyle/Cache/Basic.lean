import CSharpStyle.Digest.Sha256
import CSharpStyle.Finding.Basic
import CSharpStyle.Text.Numeral
import CSharpStyle.Text.Utf8
import CSharpStyle.Time.Timestamp

/-!
# Cache of results

A cache keeps the findings of files for later runs. They are used again while the content of the file and the
fingerprint of the settings stay the same, so that a cache never changes what a run reports.
-/

namespace CSharpStyle

/-- The digest by which the content of a file is recognized. -/
def contentHash (content : String) : String := Sha256.hexDigest (Utf8.encode content)

structure CacheEntry where
  contentHash : String
  fingerprint : String
  analyzedAt : Timestamp
  results : FileReport
  deriving DecidableEq, Repr, Inhabited

structure CacheData where
  version : Nat
  /-- The entries in the order of their paths. -/
  files : List (Path × CacheEntry)
  createdAt : Timestamp
  updatedAt : Timestamp
  hits : Nat
  misses : Nat
  deriving DecidableEq, Repr, Inhabited

/-- Enters a value in a list that is sorted by path, and replaces the value of an equal path. -/
def insertByPath {α : Type} (p : Path) (value : α) : List (Path × α) → List (Path × α)
  | [] => [(p, value)]
  | (q, old) :: rest =>
    match p.order q with
    | .lt => (p, value) :: (q, old) :: rest
    | .eq => (q, value) :: rest
    | .gt => (q, old) :: insertByPath p value rest

namespace CacheData

/-- The version of the layout. Entries of other versions are of no use. -/
def currentVersion : Nat := 2

def empty (now : Timestamp) : CacheData := ⟨currentVersion, [], now, now, 0, 0⟩

def entry? (d : CacheData) (p : Path) : Option CacheEntry := (d.files.find? (·.1.same p)).map (·.2)

/-- The results for a file, if content and settings are those of the entry. -/
def lookup? (d : CacheData) (p : Path) (contentHash fingerprint : String) : Option FileReport :=
  ((d.entry? p).filter fun e => e.contentHash == contentHash && e.fingerprint == fingerprint).map (·.results)

/-- Keeps new results, and counts that there were none. -/
def store (d : CacheData) (p : Path) (entry : CacheEntry) : CacheData :=
  { d with misses := d.misses + 1, files := insertByPath p entry d.files }

def countHit (d : CacheData) : CacheData := { d with hits := d.hits + 1 }

/-- The share of questions that were answered, in percent. -/
def hitRate (d : CacheData) : Float :=
  let asked := d.hits + d.misses
  if asked = 0 then 0 else Float.ofNat d.hits / Float.ofNat asked * 100

def statistics (d : CacheData) : String :=
  s!"Cache: {d.files.length} files, {Decimal.withTenths d.hitRate}% hit rate ({d.hits} hits, {d.misses} misses)"

end CacheData

end CSharpStyle
