import CSharpStyle.Cache.Basic
import CSharpStyle.Finding.Document
import CSharpStyle.Format.JsonReader

/-!
# Caches as JSON
-/

namespace CSharpStyle

/-- A point in time, written as a string. -/
def Timestamp.ofJson? (j : JsonValue) : Option Timestamp := j.string?.bind Timestamp.parse?

def Timestamp.toJson (t : Timestamp) : JsonValue := .string t.print

namespace CacheEntry

def toJson (e : CacheEntry) : JsonValue :=
  .object
    [("content_hash", .string e.contentHash), ("config_fingerprint", .string e.fingerprint),
     ("analyzed_at", e.analyzedAt.toJson), ("results", e.results.toJson)]

def ofJson? (j : JsonValue) : Option CacheEntry := do
  let entries ← j.fields? ["content_hash", "config_fingerprint", "analyzed_at", "results"] 4
  some
    { contentHash := ← readField? entries "content_hash" none JsonValue.string?
      fingerprint := ← readField? entries "config_fingerprint" none JsonValue.string?
      analyzedAt := ← readField? entries "analyzed_at" none Timestamp.ofJson?
      results := ← readField? entries "results" none FileReport.ofJson? }

end CacheEntry

namespace CacheData

def versionLimit : Nat := UInt32.size

def countLimit : Nat := UInt64.size

def metadataToJson (d : CacheData) : JsonValue :=
  .object
    [("created_at", d.createdAt.toJson), ("updated_at", d.updatedAt.toJson), ("hits", .natural d.hits),
     ("misses", .natural d.misses)]

def toJson (d : CacheData) : JsonValue :=
  .object
    [("version", .natural d.version), ("files", .object (d.files.map fun (p, e) => (p.text, e.toJson))),
     ("metadata", d.metadataToJson)]

/-- Adds what is known of the runs to the entries of a cache. -/
def withMetadata? (version : Nat) (files : List (Path × CacheEntry)) (j : JsonValue) : Option CacheData := do
  let entries ← j.fields? ["created_at", "updated_at", "hits", "misses"] 4
  some
    { version, files
      createdAt := ← readField? entries "created_at" none Timestamp.ofJson?
      updatedAt := ← readField? entries "updated_at" none Timestamp.ofJson?
      hits := ← readField? entries "hits" none (JsonValue.below? countLimit)
      misses := ← readField? entries "misses" none (JsonValue.below? countLimit) }

/-- The entries of all files; of entries for one path the last counts. -/
def filesOfJson? : JsonValue → Option (List (Path × CacheEntry))
  | .object entries =>
    entries.foldlM
      (fun files (name, value) => (CacheEntry.ofJson? value).map fun e => insertByPath ⟨name⟩ e files) []
  | _ => none

def ofJson? (j : JsonValue) : Option CacheData := do
  let entries ← j.fields? ["version", "files", "metadata"] 3
  let version ← readField? entries "version" none (JsonValue.below? versionLimit)
  let files ← readField? entries "files" none filesOfJson?
  readField? entries "metadata" none (withMetadata? version files)

def print (d : CacheData) : String := d.toJson.print

def parse? (text : String) : Option CacheData := (JsonValue.parse? text).bind ofJson?

end CacheData

end CSharpStyle
