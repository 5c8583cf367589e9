import CSharpStyle.Source.Position

/-!
# Structural defects

A malformed declaration or statement is reported where reading noticed it, and reading goes on behind it.
-/

namespace CSharpStyle

inductive DefectKind
  | missingIdentifier
  | unexpectedToken
  | unclosedScope
  deriving DecidableEq, Repr, Inhabited

def DefectKind.text : DefectKind → String
  | missingIdentifier => "missing identifier"
  | unexpectedToken => "unexpected token"
  | unclosedScope => "unclosed scope"

/-- What was found to be wrong. The arguments are the words for what is missing or was found. -/
inductive Defect
  /-- A declaration has no name. -/
  | nameless (declaration : String)
  /-- Another name has to follow. -/
  | expectedName (what : String)
  | malformedIteration
  | expected (what : String)
  | unexpected (token : String)
  | unexpectedAccessor (token : String)
  | notAMember (token : String)
  | unmatchedBrace
  | malformed (what : String)
  | neverClosed (what : String)
  deriving DecidableEq, Repr, Inhabited

namespace Defect

def kind : Defect → DefectKind
  | nameless _ | expectedName _ | malformedIteration => .missingIdentifier
  | neverClosed _ => .unclosedScope
  | _ => .unexpectedToken

def message : Defect → String
  | nameless declaration => s!"{declaration} without a name"
  | expectedName what => s!"expected {what}"
  | malformedIteration => "malformed foreach iteration variable"
  | expected what => s!"expected {what}"
  | unexpected token => s!"unexpected '{token}'"
  | unexpectedAccessor token => s!"unexpected '{token}' in accessor list"
  | notAMember token => s!"expected a member declaration, found '{token}'"
  | unmatchedBrace => "unmatched '\x7d'"
  | malformed what => s!"malformed {what}"
  | neverClosed what => s!"{what} opened here is never closed"

end Defect

/-- A defect and its place. -/
structure StructureError where
  defect : Defect
  position : Position
  deriving DecidableEq, Repr, Inhabited

namespace StructureError

def kind (e : StructureError) : DefectKind := e.defect.kind

def message (e : StructureError) : String := e.defect.message

def text (e : StructureError) : String := s!"{e.kind.text} at {e.position.text}: {e.message}"

end StructureError

end CSharpStyle
