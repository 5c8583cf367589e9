import CSharpStyle.Declaration.Basic

/-!
# Outline of a file

An outline records the scopes of a file, the names declared in them and the using directives. Scopes are
numbered in the order in which they are opened, so that a scope comes after the one around it; scope 0 is the
file.
-/

namespace CSharpStyle

inductive ScopeKind
  | file
  | namespaceBody
  | typeBody
  | method
  | block
  deriving DecidableEq, Repr, Inhabited

abbrev ScopeId := Nat

abbrev DeclarationId := Nat

structure Scope where
  kind : ScopeKind
  name : Option String
  typeKind : Option TypeKind
  parent : Option ScopeId
  children : Array ScopeId := #[]
  declarations : Array DeclarationId := #[]
  deriving DecidableEq, Repr, Inhabited

structure UsingDirective where
  /-- The imported namespace or aliased type, as written. -/
  target : String
  aliasName : Option String
  isStatic : Bool
  isGlobal : Bool
  position : Position
  insideNamespace : Bool
  /-- The name of the surrounding namespace. -/
  namespaceName : Option String
  deriving DecidableEq, Repr, Inhabited

structure Outline where
  scopes : Array Scope
  declarations : Array Declaration
  usings : Array UsingDirective
  /-- The number of declaration groups so far. -/
  groups : Nat
  deriving DecidableEq, Repr, Inhabited

namespace Outline

/-- The outline of an empty file. -/
def empty : Outline :=
  { scopes := #[{ kind := .file, name := none, typeKind := none, parent := none }], declarations := #[]
    usings := #[], groups := 0 }

/-- The scope of the whole file. -/
def root : ScopeId := 0

/-- Opens a scope inside `parent`. -/
def addScope (o : Outline) (kind : ScopeKind) (name : Option String) (typeKind : Option TypeKind)
    (parent : ScopeId) : ScopeId × Outline :=
  let id := o.scopes.size
  let opened : Scope := { kind, name, typeKind, parent := some parent }
  (id, { o with scopes := (o.scopes.modify parent fun s => { s with children := s.children.push id }).push opened })

/-- Records a declaration in `scope`. -/
def declare (o : Outline) (scope : ScopeId) (d : Declaration) : Outline :=
  let id := o.declarations.size
  { o with
    declarations := o.declarations.push { d with scope }
    scopes := o.scopes.modify scope fun s => { s with declarations := s.declarations.push id } }

def addUsing (o : Outline) (u : UsingDirective) : Outline := { o with usings := o.usings.push u }

/-- A number for a new declaration group. -/
def newGroup (o : Outline) : Nat × Outline := (o.groups, { o with groups := o.groups + 1 })

/-- The name of a scope. -/
def scopeName (o : Outline) (id : ScopeId) : Option String := o.scopes[id]?.bind (·.name)

/-- The kind of the type whose body the scope is. -/
def typeKindOf (o : Outline) (id : ScopeId) : Option TypeKind := o.scopes[id]?.bind (·.typeKind)

def withRole (o : Outline) (role : Role) : List Declaration :=
  o.declarations.toList.filter (·.role = role)

/-- A scope and all scopes around it, from the inside out. -/
def ancestors (o : Outline) (id : ScopeId) : List ScopeId :=
  match o.scopes[id]?.bind (·.parent) with
  | none => [id]
  | some parent => if parent < id then id :: o.ancestors parent else [id]
termination_by id

/-- The kind of the innermost type around a scope. -/
def enclosingType (o : Outline) (id : ScopeId) : Option TypeKind :=
  (o.ancestors id).findSome? o.typeKindOf

end Outline

end CSharpStyle
