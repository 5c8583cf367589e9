import CSharpStyle.Text.Numeral

/-!
# JSON values

Values with the entries of objects in the order in which they are written, and their printed form: two spaces
for each level, one item or entry on a line.
-/

namespace CSharpStyle

inductive JsonValue
  | null
  | bool (b : Bool)
  | natural (n : Nat)
  /-- A number that is negative or has a fraction or an exponent, as written. -/
  | number (text : String)
  | string (s : String)
  | array (items : List JsonValue)
  | object (entries : List (String × JsonValue))
  deriving Repr, Inhabited

namespace JsonValue

def ofOption {α : Type} (encode : α → JsonValue) : Option α → JsonValue
  | some a => encode a
  | none => null

/-- A character inside quotes. Only quotes, backslashes and control characters need an escape. -/
def escaped (c : Char) : List Char :=
  match c with
  | '"' => ['\\', '"']
  | '\\' => ['\\', '\\']
  | '\n' => ['\\', 'n']
  | '\r' => ['\\', 'r']
  | '\t' => ['\\', 't']
  | '\x08' => ['\\', 'b']
  | '\x0c' => ['\\', 'f']
  | c => if c.toNat < 0x20 then ['\\', 'u'] ++ (hexadecimalWithWidth 4 c.toNat).toList else [c]

def quoted (s : String) : String := String.ofList ('"' :: s.toList.flatMap escaped ++ ['"'])

def indentation (depth : Nat) : String := String.ofList (List.replicate (2 * depth) ' ')

/-- Brackets around items that stand on lines of their own. -/
def enclosed (opening closing : String) (depth : Nat) (items : List String) : String :=
  if items.isEmpty then opening ++ closing
  else
    opening ++ "\n" ++ ",\n".intercalate (items.map (indentation (depth + 1) ++ ·)) ++ "\n" ++
      indentation depth ++ closing

mutual

/-- The printed form at a depth of nesting. -/
def printAt (depth : Nat) : JsonValue → String
  | null => "null"
  | bool b => if b then "true" else "false"
  | natural n => toString n
  | number text => text
  | string s => quoted s
  | array items => enclosed "[" "]" depth (printItems (depth + 1) items)
  | object entries => enclosed "\x7b" "\x7d" depth (printEntries (depth + 1) entries)

def printItems (depth : Nat) : List JsonValue → List String
  | [] => []
  | item :: rest => printAt depth item :: printItems depth rest

def printEntries (depth : Nat) : List (String × JsonValue) → List String
  | [] => []
  | (key, value) :: rest => (quoted key ++ ": " ++ printAt depth value) :: printEntries depth rest

end

def print (value : JsonValue) : String := printAt 0 value

end JsonValue

end CSharpStyle
