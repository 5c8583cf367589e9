import CSharpStyle.Declaration.Modifiers

/-!
# Naming roles

The role of a declared name decides which naming convention applies to it.
-/

namespace CSharpStyle

/-- What a declaration introduces. -/
inductive DeclarationKind
  | type
  | field
  | property
  | method
  | event
  | enumMember
  /-- A positional parameter of a record, which is also a public property. -/
  | recordProperty
  | typeParameter
  | parameter
  | localVariable
  | localFunction
  deriving DecidableEq, Repr, Inhabited

inductive Role
  | typeName
  | interfaceName
  | publicMember
  | privateField
  | staticField
  | threadStaticField
  | parameter
  | localVariable
  | typeParameter
  | constant
  | privateMember
  deriving DecidableEq, Repr, Inhabited

namespace Role

def text : Role → String
  | typeName => "type name"
  | interfaceName => "interface name"
  | publicMember => "public member"
  | privateField => "private field"
  | staticField => "static field"
  | threadStaticField => "thread-static field"
  | parameter => "parameter"
  | localVariable => "local variable"
  | typeParameter => "type parameter"
  | constant => "constant"
  | privateMember => "private member"

/-- The role of a member of a type. A constant is one whatever its accessibility, and a public-facing member
is a public member whatever else is said of it. -/
def ofMember (kind : DeclarationKind) (modifiers : Modifiers) (owner : TypeKind) : Role :=
  if modifiers.isConst then constant
  else if (modifiers.accessibilityIn owner).isPublicFacing then publicMember
  else if kind = .field then
    if modifiers.threadStatic then threadStaticField
    else if modifiers.isStatic then staticField
    else privateField
  else privateMember

end Role

end CSharpStyle
