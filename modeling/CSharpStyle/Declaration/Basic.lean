import CSharpStyle.Declaration.Role
import CSharpStyle.Source.Position

/-!
# Declarations

A declaration is a name with its role, its place in the text and the scope that it belongs to.
-/

namespace CSharpStyle

/-- Whether the type of a local can be read off its initializer. -/
inductive Apparentness
  | apparent
  | notApparent
  /-- There is no initializer. -/
  | notApplicable
  deriving DecidableEq, Repr, Inhabited

/-- What is known of a local beyond its name. -/
structure LocalDetail where
  usesVar : Bool
  inForeach : Bool
  apparentness : Apparentness
  deriving DecidableEq, Repr, Inhabited

/-- The place of a declarator in a declaration of several names, such as `int a, b;`. -/
structure GroupPlace where
  group : Nat
  index : Nat
  deriving DecidableEq, Repr, Inhabited

structure Declaration where
  name : String
  role : Role
  kind : DeclarationKind
  position : Position
  accessibility : Accessibility := .unspecified
  scope : Nat := 0
  localDetail : Option LocalDetail := none
  group : Option GroupPlace := none
  deriving DecidableEq, Repr, Inhabited

namespace Declaration

/-- The declaration is a local whose type is written `var`. -/
def usesVar (d : Declaration) : Bool := d.localDetail.any (·.usesVar)

/-- The declaration is the iteration variable of a `foreach` loop. -/
def inForeach (d : Declaration) : Bool := d.localDetail.any (·.inForeach)

end Declaration

end CSharpStyle
