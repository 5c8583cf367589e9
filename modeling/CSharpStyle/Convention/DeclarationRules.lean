import CSharpStyle.Convention.Subject

/-!
# Rules on declarations

Implicitly typed locals, loop variables, using directives inside namespaces, and several declarators on one
line.
-/

namespace CSharpStyle

namespace VarApparentType

/-- A local typed `var` whose initializer does not show its type. -/
def isHidden (d : Declaration) : Bool :=
  d.localDetail.any fun l => l.usesVar && !l.inForeach && l.apparentness = .notApparent

def check (s : Subject) : List Violation :=
  ((s.withRole .localVariable).filter isHidden).map fun d =>
    s.violation .varApparentType d.position
      s!"'var' is used for '{d.name}' but its type is not apparent from the initializer"
      (some s!"declare '{d.name}' with an explicit type")

end VarApparentType

namespace ExplicitForeachType

def check (s : Subject) : List Violation :=
  ((s.withRole .localVariable).filter fun d => d.inForeach && d.usesVar).map fun d =>
    s.violation .explicitForeachType d.position s!"foreach variable '{d.name}' is declared with 'var'"
      (some "replace 'var' with the element type")

end ExplicitForeachType

namespace UsingOutsideNamespace

/-- A directive inside a namespace that is not known to mean the same outside. -/
def isMisplaced (symbols : Symbols) (u : UsingDirective) : Bool :=
  u.insideNamespace && symbols u.target u.namespaceName != some false

def message (u : UsingDirective) : String :=
  match u.namespaceName with
  | some name => s!"using directive '{u.target}' is inside namespace '{name}'"
  | none => s!"using directive '{u.target}' is inside a namespace"

def check (s : Subject) : List Violation :=
  ((s.outline.elim [] (·.usings.toList)).filter (isMisplaced s.symbols)).map fun u =>
    s.violation .usingOutsideNamespace u.position (message u)
      (some "move the directive above the namespace declaration")

end UsingOutsideNamespace

namespace OneDeclarationPerLine

/-- The declarators of all groups, by group and place. -/
def declarators (s : Subject) : List (GroupPlace × Declaration) :=
  sortBy (fun a b => (compare a.1.group b.1.group).then (compare a.1.index b.1.index))
    (s.declarations.filterMap fun d => d.group.map fun place => (place, d))

/-- Neighbouring entries of a list. -/
def neighbours {α : Type} (items : List α) : List (α × α) := items.zip items.tail

def check (s : Subject) : List Violation :=
  ((neighbours (declarators s)).filter fun (previous, current) =>
      previous.1.group == current.1.group && previous.2.position.line == current.2.position.line).map
    fun (previous, current) =>
      s.violation .oneDeclarationPerLine current.2.position
        s!"'{current.2.name}' is declared on the same line as '{previous.2.name}'"
        (some s!"declare '{current.2.name}' on its own line")

end OneDeclarationPerLine

end CSharpStyle
