import CSharpStyle.Grammar.Defect
import CSharpStyle.Grammar.TypeReference
import CSharpStyle.Outline.Basic

/-!
# Reading

A reading is a cursor with the outline and the defects recorded so far. The readers of statements, members and
namespaces turn a reading into a later one.
-/

namespace CSharpStyle

structure Reading where
  cursor : Cursor
  outline : Outline
  /-- The defects, in the order in which they were noticed. -/
  errors : Array StructureError
  /-- A loop went round, or a reader read again, without having consumed a token: reading would not have come
  to an end. -/
  stalled : Bool := false
  deriving DecidableEq, Repr, Inhabited

namespace Reading

def ofTokens (tokens : List Token) : Reading := { cursor := ⟨[], tokens⟩, outline := .empty, errors := #[] }

def ahead (s : Reading) : List Token := s.cursor.ahead

/-- The number of tokens ahead. -/
def size (s : Reading) : Nat := s.cursor.size

def stall (s : Reading) : Reading := { s with stalled := true }

def peek? (s : Reading) : Option Token := s.cursor.peek?

def sees (s : Reading) (mark : String) : Bool := s.cursor.sees mark

def seesKeyword (s : Reading) (word : String) : Bool := s.cursor.seesKeyword word

def move (s : Reading) (f : Cursor → Cursor) : Reading := { s with cursor := f s.cursor }

def next (s : Reading) : Reading := s.move Cursor.next

def eat? (s : Reading) (mark : String) : Option Reading :=
  (s.cursor.eat? mark).map fun c => { s with cursor := c }

def eatKeyword? (s : Reading) (word : String) : Option Reading :=
  (s.cursor.eatKeyword? word).map fun c => { s with cursor := c }

/-- Consumes the mark `mark` if it is next. -/
def skip (s : Reading) (mark : String) : Reading := (s.eat? mark).getD s

/-- Skips the bracketed group that begins with `opener`, if one begins here. -/
def skipGroupAt (s : Reading) (opener : String) : Reading := if s.sees opener then s.move .skipGroup else s

def name? (s : Reading) : Option (Token × Reading) :=
  s.cursor.name?.map fun (t, c) => (t, { s with cursor := c })

def type? (s : Reading) : Option (Bool × Reading) :=
  s.cursor.type?.map fun (isVar, c) => (isVar, { s with cursor := c })

/-- The start of the next token, or of the last one when all are consumed. -/
def position (s : Reading) : Position :=
  match s.cursor.ahead, s.cursor.before with
  | t :: _, _ => t.start
  | [], t :: _ => t.start
  | [], [] => .start

def reportAt (s : Reading) (position : Position) (defect : Defect) : Reading :=
  { s with errors := s.errors.push ⟨defect, position⟩ }

def report (s : Reading) (defect : Defect) : Reading := s.reportAt s.position defect

/-- Consumes the mark `mark` or reports the defect. -/
def require (s : Reading) (mark : String) (defect : Defect) : Reading :=
  match s.eat? mark with
  | some s => s
  | none => s.report defect

def openScope (s : Reading) (kind : ScopeKind) (name : Option String) (parent : ScopeId) : ScopeId × Reading :=
  let (id, outline) := s.outline.addScope kind name none parent
  (id, { s with outline })

def openType (s : Reading) (kind : TypeKind) (name : String) (parent : ScopeId) : ScopeId × Reading :=
  let (id, outline) := s.outline.addScope .typeBody (some name) (some kind) parent
  (id, { s with outline })

def declare (s : Reading) (scope : ScopeId) (d : Declaration) : Reading :=
  { s with outline := s.outline.declare scope d }

def newGroup (s : Reading) : Nat × Reading :=
  let (group, outline) := s.outline.newGroup
  (group, { s with outline })

/-- Reads with `read`. When nothing was consumed, the next token is reported and consumed. -/
def progress (read : Reading → Reading) (s : Reading) : Reading :=
  let after := read s
  if s.cursor.isStill after.cursor then
    match s.peek? with
    | some t => (after.report (.unexpected t.text)).next
    | none => after.next
  else after

def recoverRound (s : Reading) : Round Reading Reading :=
  match s.peek? with
  | none => .done s
  | some t =>
    if t.isPunctuation ";" then .done s.next
    else if t.isPunctuation "\x7d" then .done s
    else if t.isPunctuation "\x7b" then .done (s.move .skipGroup)
    else if t.isOpener then .again (s.move .skipGroup)
    else .again s.next

/-- The rest of a malformed member: all up to the next `;` or block outside parentheses. The brace that closes
the surrounding body is left. -/
def recover (s : Reading) : Reading := rounds size recoverRound stall s

end Reading

/-- A member was read to its end, or was found malformed on the way. -/
inductive Attempt
  | complete (s : Reading)
  | malformed (s : Reading)

/-- The reading behind the member, its malformed rest skipped. -/
def Attempt.settle : Attempt → Reading
  | complete s => s
  | malformed s => s.recover

end CSharpStyle
