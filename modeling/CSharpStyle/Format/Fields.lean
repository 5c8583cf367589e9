import CSharpStyle.Format.Json

/-!
# Fields of records

Records are read from named entries. A field may be missing, and the reader decides what that means, but it may
not be given twice.
-/

namespace CSharpStyle

/-- The entry of that name, if there is one; refused when there are several. -/
def field? {α : Type} (name : String) (entries : List (String × α)) : Option (Option α) :=
  match entries.filter (·.1 == name) with
  | [] => some none
  | [entry] => some (some entry.2)
  | _ => none

/-- Reads a field, or takes `missing` in its place. -/
def readField? {α β : Type} (entries : List (String × α)) (name : String) (missing : Option β)
    (read : α → Option β) : Option β :=
  (field? name entries).bind fun
    | some value => read value
    | none => missing

namespace JsonValue

/-- The fields of a record. An array stands for the fields in their order; it may leave out all but the first
`needed`. -/
def fields? (names : List String) (needed : Nat) : JsonValue → Option (List (String × JsonValue))
  | object entries => some entries
  | array items =>
    if needed ≤ items.length ∧ items.length ≤ names.length then some (names.zip items) else none
  | _ => none

def string? : JsonValue → Option String
  | string s => some s
  | _ => none

def bool? : JsonValue → Option Bool
  | bool b => some b
  | _ => none

/-- A natural number below `limit`. -/
def below? (limit : Nat) : JsonValue → Option Nat
  | natural n => if n < limit then some n else none
  | _ => none

/-- Nothing for `null`. -/
def optional? {α : Type} (read : JsonValue → Option α) : JsonValue → Option (Option α)
  | null => some none
  | value => (read value).map some

def list? {α : Type} (read : JsonValue → Option α) : JsonValue → Option (List α)
  | array items => items.mapM read
  | _ => none

/-- A name from an enumeration, alone or as the key of an object without content. -/
def named? {α : Type} (ofName : String → Option α) : JsonValue → Option α
  | string s => ofName s
  | object [(s, null)] => ofName s
  | _ => none

end JsonValue

end CSharpStyle
