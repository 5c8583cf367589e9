import CSharpStyle.Proofs.Correspondence.Shift

/-!
# Contents of scopes

What a scope holds is a tree: declarations, using directives and further scopes, in their order. An outline lists the
scopes and declarations of such a tree by their numbers.

* `Outline.ofContents`: the outline of a file with the given contents. The scopes are listed from the outside in, each
  with the numbers of the scopes and declarations right inside it.
* `Contents.record`: the outline after the contents of a scope were recorded one by one.
* `Contents.record_empty`: both are the same.
-/

namespace CSharpStyle

/-- What a scope holds, from one item on. -/
inductive Contents
  | done
  | declaration (d : Declaration) (rest : Contents)
  /-- A declaration that is the only one of its group. -/
  | grouped (d : Declaration) (rest : Contents)
  | directive (u : UsingDirective) (rest : Contents)
  | scope (kind : ScopeKind) (name : Option String) (typeKind : Option TypeKind) (inner rest : Contents)

namespace Contents

/-! ### The outline of a tree -/

def scopeCount : Contents → Nat
  | done => 0
  | declaration _ rest | grouped _ rest | directive _ rest => rest.scopeCount
  | scope _ _ _ inner rest => inner.scopeCount + 1 + rest.scopeCount

def declarationCount : Contents → Nat
  | done => 0
  | declaration _ rest | grouped _ rest => rest.declarationCount + 1
  | directive _ rest => rest.declarationCount
  | scope _ _ _ inner rest => inner.declarationCount + rest.declarationCount

def groupCount : Contents → Nat
  | done => 0
  | declaration _ rest | directive _ rest => rest.groupCount
  | grouped _ rest => rest.groupCount + 1
  | scope _ _ _ inner rest => inner.groupCount + rest.groupCount

/-- The numbers of the scopes right inside, if the first scope has number `n`. -/
def children (n : ScopeId) : Contents → List ScopeId
  | done => []
  | declaration _ rest | grouped _ rest | directive _ rest => rest.children n
  | scope _ _ _ inner rest => n :: rest.children (n + 1 + inner.scopeCount)

/-- The numbers of the declarations right inside, if the first declaration has number `m`. -/
def declared (m : DeclarationId) : Contents → List DeclarationId
  | done => []
  | declaration _ rest | grouped _ rest => m :: rest.declared (m + 1)
  | directive _ rest => rest.declared m
  | scope _ _ _ inner rest => rest.declared (m + inner.declarationCount)

/-- The scopes of the contents of scope `parent`. The first one has number `n`, and the first declaration
number `m`. -/
def scopes (parent n : ScopeId) (m : DeclarationId) : Contents → List Scope
  | done => []
  | declaration _ rest | grouped _ rest => rest.scopes parent n (m + 1)
  | directive _ rest => rest.scopes parent n m
  | scope kind name typeKind inner rest =>
    ⟨kind, name, typeKind, some parent, (inner.children (n + 1)).toArray, (inner.declared m).toArray⟩ ::
      (inner.scopes n (n + 1) m ++
        rest.scopes parent (n + 1 + inner.scopeCount) (m + inner.declarationCount))

/-- The declarations of the contents of scope `parent`. The first scope has number `n`, and the first group
number `g`. -/
def declarations (parent n : ScopeId) (g : Nat) : Contents → List Declaration
  | done => []
  | declaration d rest => { d with scope := parent } :: rest.declarations parent n g
  | grouped d rest => { d with scope := parent, group := some ⟨g, 0⟩ } :: rest.declarations parent n (g + 1)
  | directive _ rest => rest.declarations parent n g
  | scope _ _ _ inner rest =>
    inner.declarations n (n + 1) g ++ rest.declarations parent (n + 1 + inner.scopeCount) (g + inner.groupCount)

def directives : Contents → List UsingDirective
  | done => []
  | declaration _ rest | grouped _ rest => rest.directives
  | directive u rest => u :: rest.directives
  | scope _ _ _ inner rest => inner.directives ++ rest.directives

/-! ### Recording a tree -/

/-- Records the contents of `scope` one by one. -/
def record (scope : ScopeId) : Contents → Outline → Outline
  | done, o => o
  | declaration d rest, o => rest.record scope (o.declare scope d)
  | grouped d rest, o => rest.record scope (o.newGroup.2.declare scope { d with group := some ⟨o.newGroup.1, 0⟩ })
  | directive u rest, o => rest.record scope (o.addUsing u)
  | .scope kind name typeKind inner rest, o =>
    rest.record scope
      (inner.record (o.addScope kind name typeKind scope).1 (o.addScope kind name typeKind scope).2)

end Contents

/-- The scope with more scopes and declarations inside. -/
def Scope.extend (s : Scope) (children : List ScopeId) (declarations : List DeclarationId) : Scope :=
  { s with children := s.children ++ children.toArray, declarations := s.declarations ++ declarations.toArray }

namespace Outline

/-- The outline of a file with the given contents. -/
def ofContents (c : Contents) : Outline where
  scopes := (⟨.file, none, none, none, (c.children 1).toArray, (c.declared 0).toArray⟩ :: c.scopes root 1 0).toArray
  declarations := (c.declarations root 1 0).toArray
  usings := c.directives.toArray
  groups := c.groupCount

/-- The outline with further contents of `scope` behind what it has. -/
def append (o : Outline) (scope : ScopeId) (c : Contents) : Outline where
  scopes :=
    o.scopes.modify scope (·.extend (c.children o.scopes.size) (c.declared o.declarations.size)) ++
      (c.scopes scope o.scopes.size o.declarations.size).toArray
  declarations := o.declarations ++ (c.declarations scope o.scopes.size o.groups).toArray
  usings := o.usings ++ c.directives.toArray
  groups := o.groups + c.groupCount

end Outline

/-! ### The outline of a tree is what recording it gives -/

section

variable {α : Type} (xs ys : Array α) (x : α) (i : Nat) (f g : α → α)

private theorem modify_modify : (xs.modify i f).modify i g = xs.modify i (g ∘ f) := by
  refine Array.ext_getElem? fun j => ?_
  simp only [Array.getElem?_modify]
  split
  · rw [Option.map_map]
  · rfl

private theorem modify_push_size : (xs.push x).modify xs.size f = xs.push (f x) := by
  refine Array.ext_getElem? fun j => ?_
  simp only [Array.getElem?_modify, Array.getElem?_push]
  grind

private theorem modify_append (h : i < xs.size) : (xs ++ ys).modify i f = xs.modify i f ++ ys := by
  refine Array.ext_getElem? fun j => ?_
  simp only [Array.getElem?_modify, Array.getElem?_append, Array.size_modify]
  grind

private theorem modify_push (h : i < xs.size) : (xs.push x).modify i f = (xs.modify i f).push x :=
  modify_append xs #[x] i f h

end

namespace Contents

variable {o : Outline} {scope : ScopeId}

theorem append_done (o : Outline) (scope : ScopeId) : o.append scope done = o := by
  have hscopes : o.scopes.modify scope (·.extend [] []) = o.scopes := by
    refine Array.ext_getElem? fun j => ?_
    simp [Array.getElem?_modify, Scope.extend]
  simp [Outline.append, children, declared, scopes, declarations, directives, groupCount, hscopes]

theorem append_declaration (o : Outline) (scope : ScopeId) (d : Declaration) (rest : Contents) :
    o.append scope (declaration d rest) = (o.declare scope d).append scope rest := by
  simp [Outline.append, Outline.declare, children, declared, scopes, declarations, directives, groupCount,
    modify_modify, Scope.extend, Function.comp_def]

theorem append_grouped (o : Outline) (scope : ScopeId) (d : Declaration) (rest : Contents) :
    o.append scope (grouped d rest) =
      (o.newGroup.2.declare scope { d with group := some ⟨o.newGroup.1, 0⟩ }).append scope rest := by
  simp [Outline.append, Outline.declare, Outline.newGroup, children, declared, scopes, declarations, directives,
    groupCount, modify_modify, Scope.extend, Function.comp_def, Nat.add_assoc, Nat.add_comm]

theorem append_directive (o : Outline) (scope : ScopeId) (u : UsingDirective) (rest : Contents) :
    o.append scope (directive u rest) = (o.addUsing u).append scope rest := by
  simp [Outline.append, Outline.addUsing, children, declared, scopes, declarations, directives, groupCount]

theorem length_scopes (c : Contents) (parent n : ScopeId) (m : DeclarationId) :
    (c.scopes parent n m).length = c.scopeCount := by
  induction c generalizing parent n m <;> simp_all [scopes, scopeCount]
  omega

theorem length_declarations (c : Contents) (parent n : ScopeId) (g : Nat) :
    (c.declarations parent n g).length = c.declarationCount := by
  induction c generalizing parent n g <;> simp_all [declarations, declarationCount]

/-- The contents of an opened scope stand behind it, and what follows it in `scope` stands behind these. -/
theorem append_scope (h : scope < o.scopes.size) (kind : ScopeKind) (name : Option String)
    (typeKind : Option TypeKind) (inner rest : Contents) :
    o.append scope (.scope kind name typeKind inner rest) =
      ((o.addScope kind name typeKind scope).2.append (o.addScope kind name typeKind scope).1 inner).append scope
        rest := by
  let n := o.scopes.size
  let around := o.scopes.modify scope fun s => { s with children := s.children.push n }
  let opened : Scope := ⟨kind, name, typeKind, some scope, #[], #[]⟩
  have hsize : around.size = n := Array.size_modify ..
  -- The opened scope is the last one, so that what is inside of it is numbered from `n + 1` on.
  let filled := opened.extend (inner.children (n + 1)) (inner.declared o.declarations.size)
  have hinner : (o.addScope kind name typeKind scope).2.append n inner =
      { scopes := around.push filled ++ (inner.scopes n (n + 1) o.declarations.size).toArray
        declarations := o.declarations ++ (inner.declarations n (n + 1) o.groups).toArray
        usings := o.usings ++ inner.directives.toArray
        groups := o.groups + inner.groupCount } := by
    have hopened := modify_push_size around opened
      (·.extend (inner.children (n + 1)) (inner.declared o.declarations.size))
    rw [hsize] at hopened
    rw [show (o.addScope kind name typeKind scope).2 = { o with scopes := around.push opened } from rfl]
    simp only [Outline.append, Array.size_push, hsize, hopened, filled]
  rw [show (o.addScope kind name typeKind scope).1 = n from rfl, hinner]
  have hscope : scope < around.size := by rwa [hsize]
  have haround : scope < (around.push filled).size := by
    rw [Array.size_push]
    exact Nat.lt_succ_of_lt hscope
  simp only [Outline.append, Array.size_append, Array.size_push, hsize, List.size_toArray, length_scopes,
    length_declarations, modify_append _ _ _ _ haround, modify_push _ _ _ _ hscope, around, modify_modify]
  simp [children, declared, scopes, declarations, directives, groupCount, Scope.extend, Function.comp_def, opened,
    filled, n, Nat.add_assoc]

theorem size_append_le (o : Outline) (scope : ScopeId) (c : Contents) :
    o.scopes.size ≤ (o.append scope c).scopes.size := by
  simp [Outline.append]

theorem record_eq_append (c : Contents) (h : scope < o.scopes.size) : c.record scope o = o.append scope c := by
  induction c generalizing o scope with
  | done => exact (append_done o scope).symm
  | declaration d rest ih => rw [record, append_declaration, ih (by simpa using h)]
  | grouped d rest ih => rw [record, append_grouped, ih (by simpa [Outline.newGroup] using h)]
  | directive u rest ih => rw [record, append_directive, ih (o := o.addUsing u) h]
  | scope kind name typeKind inner rest ihInner ihRest =>
    have hopened : (o.addScope kind name typeKind scope).1 < (o.addScope kind name typeKind scope).2.scopes.size := by
      simp [Outline.addScope]
    rw [record, ihInner hopened, append_scope h, ihRest]
    exact Nat.lt_of_lt_of_le (Nat.lt_of_lt_of_le h (by simp [Outline.addScope])) (size_append_le ..)

/-- The tree of a file is recorded in the outline of an empty file. -/
theorem record_empty (c : Contents) : c.record Outline.root .empty = Outline.ofContents c := by
  rw [record_eq_append c Nat.one_pos]
  simp [Outline.append, Outline.ofContents, Outline.empty, Outline.root, Scope.extend]

/-- A scope inside a scope, and a declaration in each of the two scopes around. -/
example (d e : Declaration) :
    Outline.ofContents (.scope .typeBody none none (.declaration d (.scope .method none none .done .done))
      (.grouped e .done)) =
    { scopes := #[⟨.file, none, none, none, #[1], #[1]⟩, ⟨.typeBody, none, none, some 0, #[2], #[0]⟩,
        ⟨.method, none, none, some 1, #[], #[]⟩]
      declarations := #[{ d with scope := 1 }, { e with scope := 0, group := some ⟨0, 0⟩ }]
      usings := #[]
      groups := 1 } := rfl

/-- What is recorded in a scope does not change the scopes that there are. -/
theorem heading_record (c : Contents) {id : ScopeId} {heading : Option String × Option TypeKind}
    (h : o.heading? id = some heading) : (c.record scope o).heading? id = some heading := by
  induction c generalizing o scope with
  | done => exact h
  | declaration d rest ih => exact ih ((Outline.heading_declare ..).trans h)
  | grouped d rest ih => exact ih ((Outline.heading_declare ..).trans h)
  | directive u rest ih => exact ih h
  | scope kind name typeKind inner rest ihInner ihRest =>
    refine ihRest (ihInner ?_)
    have hid : id ≠ o.scopes.size := by
      rintro rfl
      rw [Outline.heading_eq_none (Nat.le_refl _)] at h
      cases h
    rw [Outline.heading_addScope, if_neg hid, h]

end Contents

end CSharpStyle
