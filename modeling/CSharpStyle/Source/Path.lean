/-!
# File paths

A path is kept as it was written and compared by its components: repeated separators, a separator at the end
and a `.` inside do not count.
-/

namespace CSharpStyle

/-- A component of a path. -/
inductive PathComponent
  | root
  | current
  | parent
  | name (text : String)
  deriving DecidableEq, Repr, Inhabited

namespace PathComponent

def rank : PathComponent → Nat
  | root => 0
  | current => 1
  | parent => 2
  | name _ => 3

/-- The root comes first, then `.` and `..`, then names in the order of their bytes. -/
def order : PathComponent → PathComponent → Ordering
  | name s, name t => compare s t
  | p, q => compare p.rank q.rank

def text : PathComponent → String
  | root => "/"
  | current => "."
  | parent => ".."
  | name s => s

end PathComponent

/-- The pieces of a text between separators, at least one. -/
def splitOnChar (separator : Char) : List Char → List (List Char)
  | [] => [[]]
  | c :: rest =>
    if c = separator then [] :: splitOnChar separator rest
    else
      match splitOnChar separator rest with
      | [] => [[c]]
      | piece :: pieces => (c :: piece) :: pieces

structure Path where
  text : String
  deriving DecidableEq, Repr, Inhabited

namespace Path

/-- The component that a piece between separators stands for, except at the beginning. -/
def componentOf? (piece : List Char) : Option PathComponent :=
  if piece = [] ∨ piece = ['.'] then none
  else if piece = ['.', '.'] then some .parent
  else some (.name (String.ofList piece))

def components (p : Path) : List PathComponent :=
  match splitOnChar '/' p.text.toList with
  | [] => []
  | first :: rest =>
    let others := rest.filterMap componentOf?
    if first = [] then if rest.isEmpty then [] else .root :: others
    else if first = ['.'] then .current :: others
    else (componentOf? first).toList ++ others

/-- Lexicographic order of two lists of components. -/
def compareComponents : List PathComponent → List PathComponent → Ordering
  | [], [] => .eq
  | [], _ :: _ => .lt
  | _ :: _, [] => .gt
  | p :: ps, q :: qs => (p.order q).then (compareComponents ps qs)

def order (p q : Path) : Ordering := compareComponents p.components q.components

/-- The paths have the same components. -/
def same (p q : Path) : Bool := p.components == q.components

/-! ## Parts of the text -/

def isRooted (p : Path) : Bool := p.text.toList.head? == some '/'

/-- The pieces between separators, without the root. -/
def pieces (p : Path) : List (List Char) :=
  splitOnChar '/' (if p.isRooted then p.text.toList.tail else p.text.toList)

/-- A piece that is no component. -/
def isVoid (piece : List Char) : Bool := piece.isEmpty || piece == ['.']

/-- The pieces up to the last component. A `.` at the beginning of a relative path is one. -/
def trimEnd (isRooted : Bool) (pieces : List (List Char)) : List (List Char) :=
  let trim (pieces : List (List Char)) := (pieces.reverse.dropWhile isVoid).reverse
  match isRooted, pieces with
  | false, ['.'] :: rest => ['.'] :: trim rest
  | _, pieces => trim pieces

def ofPieces (isRooted : Bool) (pieces : List (List Char)) : Path :=
  ⟨String.ofList ((if isRooted then ['/'] else []) ++ ['/'].intercalate pieces)⟩

/-- The path without what follows its last component. -/
def trimmed (p : Path) : Path := ofPieces p.isRooted (trimEnd p.isRooted p.pieces)

/-- The path without its last component, as it was written; the root and the empty path have no parent. -/
def parent? (p : Path) : Option Path :=
  match trimEnd p.isRooted p.pieces with
  | [] => none
  | pieces => some (ofPieces p.isRooted (trimEnd p.isRooted pieces.dropLast))

/-- The path, its parent and so on, at most `n` parents. -/
def ancestorsWithin : Nat → Path → List Path
  | 0, p => [p]
  | n + 1, p => p :: p.parent?.elim [] (ancestorsWithin n)

/-- The path, its parent, the parent of that and so on. -/
def ancestors (p : Path) : List Path := ancestorsWithin p.components.length p

/-- The components of the path begin with those of `base`. -/
def isWithin (p base : Path) : Bool := base.components.isPrefixOf p.components

/-- The pieces behind the first `n` components. -/
def dropComponents : Nat → List (List Char) → List (List Char)
  | 0, pieces => pieces.dropWhile isVoid
  | _ + 1, [] => []
  | n + 1, piece :: rest => if isVoid piece then dropComponents (n + 1) rest else dropComponents n rest

/-- The path as seen from `base`, if it is within it. -/
def relativeTo? (p base : Path) : Option Path :=
  if p.isWithin base then
    match base.components with
    | [] => some p.trimmed
    | .root :: names => some (ofPieces false (trimEnd true (dropComponents names.length p.pieces)))
    | .current :: names => some (ofPieces false (trimEnd true (dropComponents names.length p.pieces.tail)))
    | names => some (ofPieces false (trimEnd true (dropComponents names.length p.pieces)))
  else none

/-- The last component, if it is a name. -/
def fileName? (p : Path) : Option String :=
  match p.components.getLast? with
  | some (.name s) => some s
  | _ => none

/-- What follows the last dot of the file name, if a dot follows its first character. -/
def extension? (p : Path) : Option String :=
  match p.fileName? with
  | none => none
  | some name =>
    let reversed := name.toList.reverse
    let tail := reversed.takeWhile (· != '.')
    match reversed.drop tail.length with
    | _ :: _ :: _ => some (String.ofList tail.reverse)
    | _ => none

/-- The path inside the directory `p`; an absolute path stays as it is. -/
def join (p : Path) (inner : String) : Path :=
  if inner.toList.head? == some '/' then ⟨inner⟩
  else if p.text.isEmpty then ⟨inner⟩
  else if p.text.toList.getLast? == some '/' then ⟨p.text ++ inner⟩
  else ⟨p.text ++ "/" ++ inner⟩

end Path

end CSharpStyle
