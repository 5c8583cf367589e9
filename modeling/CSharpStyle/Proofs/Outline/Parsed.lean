import CSharpStyle.Proofs.Correspondence.Invariant
import CSharpStyle.Proofs.Outline.WellFormed

/-!
# Outlines of files are trees

Readers open scopes and record declarations only in scopes that are open, so that the outline of a file is built from
the empty one. They open no scope as a file, which leaves scope 0 the only one.

* `Correspondence.built`: reading keeps that the outline was built.
* `Outline.wellFormed_of_built`: whatever is built is a tree, and what is read from a file is built.
-/

namespace CSharpStyle

/-- The outline was built, and no scope but the first was opened as a file. -/
def Outline.Grown (o : Outline) : Prop := ∃ ids groups, Outline.Built ids [] groups o

namespace Outline.Grown

variable {o : Outline}

theorem empty : Outline.empty.Grown := ⟨_, _, .empty⟩

theorem addScope (h : o.Grown) {kind : ScopeKind} (hkind : kind ≠ .file) (name : Option String)
    (typeKind : Option TypeKind) {parent : ScopeId} (hparent : parent < o.scopes.size) :
    (o.addScope kind name typeKind parent).2.Grown := by
  obtain ⟨ids, groups, hbuilt⟩ := h
  have hopened := hbuilt.addScope kind name typeKind ((hbuilt.mem_ids_iff _).mpr hparent)
  rw [if_neg hkind] at hopened
  exact ⟨_, _, hopened⟩

theorem declare (h : o.Grown) (d : Declaration) {scope : ScopeId} (hscope : scope < o.scopes.size) :
    (o.declare scope d).Grown := by
  obtain ⟨ids, groups, hbuilt⟩ := h
  exact ⟨_, _, hbuilt.declare d ((hbuilt.mem_ids_iff _).mpr hscope)⟩

theorem addUsing (h : o.Grown) (u : UsingDirective) : (o.addUsing u).Grown := by
  obtain ⟨ids, groups, hbuilt⟩ := h
  exact ⟨_, _, hbuilt.addUsing u⟩

theorem newGroup (h : o.Grown) : o.newGroup.2.Grown := by
  obtain ⟨ids, groups, hbuilt⟩ := h
  exact ⟨_, _, hbuilt.newGroup⟩

end Outline.Grown

/-- Readings over the tokens correspond to themselves as long as their outlines were built, in scopes of these. -/
def Correspondence.built (tokens : List Token) : Correspondence :=
  { Correspondence.invariant tokens (fun _ => True) fun _ => id with
    outlines := fun o p => o = p ∧ o.Grown
    scopes := fun o _ i j => i = j ∧ i < o.scopes.size
    addScope := by
      rintro o p i j kind name typeKind hkind ⟨rfl, ho⟩ ⟨rfl, hi⟩
      have hsize := o.size_addScope kind name typeKind i
      refine ⟨⟨rfl, ho.addScope hkind name typeKind hi⟩, ⟨rfl, ?_⟩, fun hk => ⟨hk.1, ?_⟩⟩
      · rw [hsize]
        exact Nat.lt_succ_self _
      · rw [hsize]
        exact Nat.lt_succ_of_lt hk.2
    declare := by
      rintro o p i j d e ⟨rfl, ho⟩ ⟨rfl, hi⟩ hde
      refine ⟨⟨hde.declare_eq o i, ho.declare d hi⟩, fun hk => ⟨hk.1, ?_⟩⟩
      rw [o.size_declare]
      exact hk.2
    newGroup := by
      rintro o p ⟨rfl, ho⟩
      exact ⟨rfl, ⟨rfl, ho.newGroup⟩, id⟩
    addUsing := by
      rintro o p u v ⟨rfl, ho⟩ huv
      have hsame : v = u := by
        rw [← huv.rest, huv.position]
      exact ⟨⟨by rw [hsame], ho.addUsing u⟩, id⟩
    scopeName := by
      rintro o p i j ⟨rfl, -⟩ ⟨rfl, -⟩
      rfl
    typeKindOf := by
      rintro o p i j ⟨rfl, -⟩ ⟨rfl, -⟩
      rfl }

/-- The outline of a file was built. -/
theorem CompilationUnit.grown_ofTokens (tokens : List Token) : (ofTokens tokens).outline.Grown := by
  let C := Correspondence.built tokens
  have hstart : C.Related (.ofTokens tokens) (.ofTokens tokens) :=
    ⟨⟨rfl, rfl⟩, ⟨rfl, .empty⟩, ⟨rfl, trivial⟩, rfl, rfl⟩
  have hbody : NamespaceBody.file.Alike C.positions (C.scopes Outline.empty Outline.empty) NamespaceBody.file :=
    ⟨⟨rfl, Nat.zero_lt_one⟩, rfl, .none⟩
  exact (Correspondence.namespaceBody hstart hbody).1.related.outline.2

namespace Outline

/-- Whatever is added to an outline in scopes that were opened before, it is a tree, in which scope 0 and the scopes
that were opened as files are the files; and the outline of any tokens is such a tree with the one file. -/
theorem wellFormed_of_built :
    (∀ {ids files : List ScopeId} {groups : List Nat} {o : Outline}, Built ids files groups o →
      o.WellFormed files groups) ∧
    ∀ tokens : List Token, ∃ ids groups, Built ids [] groups (CompilationUnit.ofTokens tokens).outline ∧
      (CompilationUnit.ofTokens tokens).outline.WellFormed [] groups := by
  constructor
  · intro ids files groups o h
    exact h.linked.wellFormed
  · intro tokens
    obtain ⟨ids, groups, h⟩ := CompilationUnit.grown_ofTokens tokens
    exact ⟨ids, groups, h, h.linked.wellFormed⟩

/-- A method in a class in a namespace, with a parameter. -/
theorem wellFormed_service :
    let app := Outline.empty.addScope .namespaceBody (some "App") none root
    let service := app.2.addScope .typeBody (some "Service") (some .classType) app.1
    let run := service.2.addScope .method (some "Run") none service.1
    let count : Declaration := { name := "count", role := .parameter, kind := .parameter, position := .start }
    let o := run.2.declare run.1 count
    Built [run.1, service.1, app.1, root] [] [] o ∧ o.WellFormed [] [] ∧
      o.ancestors run.1 = [run.1, service.1, app.1, root] ∧ o.enclosingType run.1 = some .classType := by
  intro app service run count o
  have happ : Built [app.1, root] [] [] app.2 := Built.empty.addScope .namespaceBody _ _ (by decide)
  have hservice : Built [service.1, app.1, root] [] [] service.2 := happ.addScope .typeBody _ _ (by decide)
  have hrun : Built [run.1, service.1, app.1, root] [] [] run.2 := hservice.addScope .method _ _ (by decide)
  have ho : Built [run.1, service.1, app.1, root] [] [] o := hrun.declare count (by decide)
  exact ⟨ho, wellFormed_of_built.1 ho, by decide +kernel, by decide +kernel⟩

/-- A scope can be opened as a file inside of the file. -/
theorem second_file :
    let o := (Outline.empty.addScope .file (some "again") none root).2
    Built [1, root] [1] [] o ∧ ¬∀ {i : ScopeId} {s : Scope}, o.scopes[i]? = some s → (s.kind = .file ↔ i = root) := by
  intro o
  refine ⟨Built.empty.addScope .file (some "again") none (by decide), fun h => ?_⟩
  have hsecond := h (i := 1) rfl
  exact absurd (hsecond.mp rfl) (by decide)

end Outline

end CSharpStyle
