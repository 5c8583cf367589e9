/-!
# Modifiers and accessibility

Access keywords in front of a declaration combine in pairs: `protected internal` and `private protected` are
levels of their own, in either order. Any other access keyword replaces what came before.
-/

namespace CSharpStyle

/-- The kinds of types that a declaration can introduce. -/
inductive TypeKind
  | classType
  | structType
  | interfaceType
  | enumType
  | recordType
  | delegateType
  deriving DecidableEq, Repr, Inhabited

/-- Members without an access keyword are public in interfaces and enumerations. -/
def TypeKind.membersArePublic : TypeKind → Bool
  | interfaceType | enumType => true
  | _ => false

inductive Accessibility
  | isPublic
  | isProtected
  | protectedInternal
  | isInternal
  | isPrivate
  | privateProtected
  /-- No access keyword was written. -/
  | unspecified
  deriving DecidableEq, Repr, Inhabited

namespace Accessibility

/-- Visible outside the assembly that declares it. -/
def isPublicFacing : Accessibility → Bool
  | isPublic | isProtected | protectedInternal => true
  | _ => false

/-- The level that a further access keyword leads to, unless `word` is not one. -/
def combine? (level : Accessibility) (word : String) : Option Accessibility :=
  match word with
  | "public" => some isPublic
  | "protected" =>
    match level with
    | isInternal => some protectedInternal
    | isPrivate => some privateProtected
    | _ => some isProtected
  | "internal" => some (if level = isProtected then protectedInternal else isInternal)
  | "private" => some (if level = isProtected then privateProtected else isPrivate)
  | _ => none

end Accessibility

/-- What stands in front of a declaration. -/
structure Modifiers where
  accessibility : Accessibility := .unspecified
  isStatic : Bool := false
  isConst : Bool := false
  isReadonly : Bool := false
  /-- The attribute `ThreadStatic` is present. -/
  threadStatic : Bool := false
  deriving DecidableEq, Repr, Inhabited

namespace Modifiers

/-- Modifiers that are accepted and leave no mark. -/
def unmarked : List String :=
  ["abstract", "virtual", "override", "sealed", "extern", "unsafe", "volatile", "async", "partial", "required",
   "new", "file"]

/-- The modifiers with `word` added, unless `word` is not a modifier. -/
def add? (m : Modifiers) (word : String) : Option Modifiers :=
  match m.accessibility.combine? word with
  | some level => some { m with accessibility := level }
  | none =>
    if word = "static" then some { m with isStatic := true }
    else if word = "const" then some { m with isConst := true }
    else if word = "readonly" then some { m with isReadonly := true }
    else if unmarked.contains word then some m
    else none

/-- The accessibility of a member of a type of kind `owner`. -/
def accessibilityIn (m : Modifiers) (owner : TypeKind) : Accessibility :=
  if m.accessibility = .unspecified && owner.membersArePublic then .isPublic else m.accessibility

end Modifiers

end CSharpStyle
