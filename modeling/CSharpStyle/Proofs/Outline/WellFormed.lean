import CSharpStyle.Proofs.Correspondence.Shift
import Mathlib.Data.List.Nodup

/-!
# Outlines are trees

An outline keeps each edge of the tree twice: a scope knows its parent and its children, and a declaration knows its
scope and stands in its list. Whatever is added to an outline in scopes that were opened before, the two agree.

* `Outline.Built`: the outlines that are reached from the empty one.
* `Outline.Linked`: the invariant, which every step keeps.
* `Outline.Linked.ancestors_chain`: the scopes around a scope are found from parent to parent, up to the file.
* `Outline.Built.linked`, `Outline.Linked.wellFormed`: an outline that was built is a tree.
-/

namespace CSharpStyle

namespace Outline

/-- Outlines that are reached from the empty one. The scopes in `ids` can be used as parents and for declarations, those
in `files` were opened as files, and the numbers in `groups` were handed out. -/
inductive Built : List ScopeId → List ScopeId → List Nat → Outline → Prop
  | empty : Built [root] [] [] .empty
  | addScope {ids files : List ScopeId} {groups : List Nat} {o : Outline} {parent : ScopeId}
      (h : Built ids files groups o) (kind : ScopeKind) (name : Option String) (typeKind : Option TypeKind)
      (hparent : parent ∈ ids) :
      Built ((o.addScope kind name typeKind parent).1 :: ids)
        (if kind = .file then (o.addScope kind name typeKind parent).1 :: files else files) groups
        (o.addScope kind name typeKind parent).2
  | declare {ids files : List ScopeId} {groups : List Nat} {o : Outline} {scope : ScopeId}
      (h : Built ids files groups o) (d : Declaration) (hscope : scope ∈ ids) :
      Built ids files groups (o.declare scope d)
  | addUsing {ids files : List ScopeId} {groups : List Nat} {o : Outline} (h : Built ids files groups o)
      (u : UsingDirective) : Built ids files groups (o.addUsing u)
  | newGroup {ids files : List ScopeId} {groups : List Nat} {o : Outline} (h : Built ids files groups o) :
      Built ids files (groups ++ [o.newGroup.1]) o.newGroup.2

/-- The scope around a scope. -/
def parentOf (o : Outline) (id : ScopeId) : Option ScopeId := o.scopes[id]?.bind (·.parent)

/-- The scope of a declaration. -/
def scopeOf (o : Outline) (id : DeclarationId) : Option ScopeId := o.declarations[id]?.map (·.scope)

/-- Each edge is kept at both of its ends. -/
structure Linked (files : List ScopeId) (groups : List Nat) (o : Outline) : Prop where
  size_pos : 0 < o.scopes.size
  kind {i : ScopeId} {s : Scope} : o.scopes[i]? = some s → (s.kind = .file ↔ i = root ∨ i ∈ files)
  parent {i : ScopeId} {s : Scope} : o.scopes[i]? = some s → (s.parent = none ↔ i = root)
  parent_lt {i p : ScopeId} : o.parentOf i = some p → p < i
  children {i : ScopeId} {s : Scope} : o.scopes[i]? = some s →
    s.children.toList.Pairwise (· < ·) ∧ ∀ j : ScopeId, j ∈ s.children.toList ↔ o.parentOf j = some i
  declarations {i : ScopeId} {s : Scope} : o.scopes[i]? = some s →
    s.declarations.toList.Pairwise (· < ·) ∧ ∀ k : DeclarationId, k ∈ s.declarations.toList ↔ o.scopeOf k = some i
  scope_lt {k : DeclarationId} {i : ScopeId} : o.scopeOf k = some i → i < o.scopes.size
  files_lt : ∀ i ∈ files, i < o.scopes.size
  groups : groups = List.range o.groups

/-! ### Scopes and declarations behind a step -/

variable {o : Outline}

theorem getElem?_addScope (o : Outline) (kind : ScopeKind) (name : Option String) (typeKind : Option TypeKind)
    (parent i : ScopeId) :
    (o.addScope kind name typeKind parent).2.scopes[i]? =
      if i = o.scopes.size then some { kind, name, typeKind, parent := some parent }
      else o.scopes[i]?.map fun s => if parent = i then { s with children := s.children.push o.scopes.size } else s := by
  simp only [addScope, Array.getElem?_push, Array.size_modify, Array.getElem?_modify]
  by_cases hi : i = o.scopes.size
  · rw [if_pos hi, if_pos hi]
  · rw [if_neg hi, if_neg hi]
    by_cases hparent : parent = i
    · simp only [if_pos hparent]
    · simp only [if_neg hparent, Option.map_id']

theorem getElem?_declare (o : Outline) (scope : ScopeId) (d : Declaration) (i : ScopeId) :
    (o.declare scope d).scopes[i]? = o.scopes[i]?.map fun s =>
      if scope = i then { s with declarations := s.declarations.push o.declarations.size } else s := by
  simp only [declare, Array.getElem?_modify]
  by_cases hscope : scope = i
  · simp only [if_pos hscope]
  · simp only [if_neg hscope, Option.map_id']

theorem parentOf_addScope (o : Outline) (kind : ScopeKind) (name : Option String) (typeKind : Option TypeKind)
    (parent i : ScopeId) :
    (o.addScope kind name typeKind parent).2.parentOf i = if i = o.scopes.size then some parent else o.parentOf i := by
  rw [parentOf, getElem?_addScope]
  by_cases hi : i = o.scopes.size
  · rw [if_pos hi, if_pos hi]
    rfl
  · rw [if_neg hi, if_neg hi, parentOf, Option.bind_map]
    congr 1
    funext s
    by_cases hparent : parent = i
    · simp only [Function.comp_apply, if_pos hparent]
    · simp only [Function.comp_apply, if_neg hparent]

theorem parentOf_declare (o : Outline) (scope : ScopeId) (d : Declaration) (i : ScopeId) :
    (o.declare scope d).parentOf i = o.parentOf i := by
  rw [parentOf, getElem?_declare, parentOf, Option.bind_map]
  congr 1
  funext s
  by_cases hscope : scope = i
  · simp only [Function.comp_apply, if_pos hscope]
  · simp only [Function.comp_apply, if_neg hscope]

theorem scopeOf_declare (o : Outline) (scope : ScopeId) (d : Declaration) (k : DeclarationId) :
    (o.declare scope d).scopeOf k = if k = o.declarations.size then some scope else o.scopeOf k := by
  simp only [scopeOf, declare, Array.getElem?_push]
  by_cases hk : k = o.declarations.size
  · rw [if_pos hk, if_pos hk]
    rfl
  · rw [if_neg hk, if_neg hk]

theorem exists_scope {i : ScopeId} (h : i < o.scopes.size) : ∃ s, o.scopes[i]? = some s :=
  ⟨_, Array.getElem?_eq_getElem h⟩

theorem lt_size_of_parentOf {i p : ScopeId} (h : o.parentOf i = some p) : i < o.scopes.size := by
  by_contra hle
  rw [parentOf, Array.getElem?_eq_none (Nat.le_of_not_lt hle)] at h
  cases h

theorem lt_size_of_scopeOf {k : DeclarationId} {i : ScopeId} (h : o.scopeOf k = some i) : k < o.declarations.size := by
  by_contra hle
  rw [scopeOf, Array.getElem?_eq_none (Nat.le_of_not_lt hle)] at h
  cases h

/-- Behind an increasing list, a larger number keeps it increasing. -/
private theorem pairwise_push {items : Array Nat} {n : Nat} (h : items.toList.Pairwise (· < ·))
    (hlt : ∀ i ∈ items.toList, i < n) : (items.push n).toList.Pairwise (· < ·) := by
  rw [Array.toList_push, List.pairwise_append]
  refine ⟨h, List.pairwise_singleton _ _, fun i hi j hj => ?_⟩
  rw [List.mem_singleton.mp hj]
  exact hlt i hi

/-- A scope is the one that was opened, or stood there before with another list of children at most. -/
private theorem addScope_cases {kind : ScopeKind} {name : Option String} {typeKind : Option TypeKind}
    {parent i : ScopeId} {s : Scope} (h : (o.addScope kind name typeKind parent).2.scopes[i]? = some s) :
    (i = o.scopes.size ∧ s = { kind, name, typeKind, parent := some parent }) ∨
      i ≠ o.scopes.size ∧ ∃ t, o.scopes[i]? = some t ∧
        s = { t with children := if parent = i then t.children.push o.scopes.size else t.children } := by
  rw [getElem?_addScope] at h
  by_cases hi : i = o.scopes.size
  · rw [if_pos hi] at h
    exact .inl ⟨hi, (Option.some.inj h).symm⟩
  · rw [if_neg hi] at h
    obtain ⟨t, ht, hs⟩ := Option.map_eq_some_iff.mp h
    refine .inr ⟨hi, t, ht, ?_⟩
    by_cases hparent : parent = i
    · rw [if_pos hparent] at hs ⊢
      exact hs.symm
    · rw [if_neg hparent] at hs ⊢
      exact hs.symm

private theorem declare_cases {scope i : ScopeId} {d : Declaration} {s : Scope}
    (h : (o.declare scope d).scopes[i]? = some s) :
    ∃ t, o.scopes[i]? = some t ∧
      s = { t with declarations :=
        if scope = i then t.declarations.push o.declarations.size else t.declarations } := by
  rw [getElem?_declare] at h
  obtain ⟨t, ht, hs⟩ := Option.map_eq_some_iff.mp h
  refine ⟨t, ht, ?_⟩
  by_cases hscope : scope = i
  · rw [if_pos hscope] at hs ⊢
    exact hs.symm
  · rw [if_neg hscope] at hs ⊢
    exact hs.symm

/-! ### The invariant -/

namespace Linked

variable {files : List ScopeId} {groups : List Nat}

private theorem empty_cases {i : ScopeId} {s : Scope} (h : Outline.empty.scopes[i]? = some s) :
    i = root ∧ s = { kind := .file, name := none, typeKind := none, parent := none } := by
  cases i with
  | zero => exact ⟨rfl, (Option.some.inj h).symm⟩
  | succ i => cases h

theorem empty : Outline.empty.Linked [] [] where
  size_pos := Nat.zero_lt_one
  kind h := by
    obtain ⟨rfl, rfl⟩ := empty_cases h
    exact iff_of_true rfl (.inl rfl)
  parent h := by
    obtain ⟨rfl, rfl⟩ := empty_cases h
    exact iff_of_true rfl rfl
  parent_lt h := by
    obtain ⟨s, hs, hp⟩ := Option.bind_eq_some_iff.mp h
    obtain ⟨rfl, rfl⟩ := empty_cases hs
    cases hp
  children h := by
    obtain ⟨rfl, rfl⟩ := empty_cases h
    refine ⟨.nil, fun j => iff_of_false List.not_mem_nil fun hj => ?_⟩
    obtain ⟨s, hs, hp⟩ := Option.bind_eq_some_iff.mp hj
    obtain ⟨rfl, rfl⟩ := empty_cases hs
    cases hp
  declarations h := by
    obtain ⟨rfl, rfl⟩ := empty_cases h
    exact ⟨.nil, fun k => iff_of_false List.not_mem_nil nofun⟩
  scope_lt := nofun
  files_lt := nofun
  groups := rfl

theorem addScope (h : o.Linked files groups) {parent : ScopeId} (hparent : parent < o.scopes.size) (kind : ScopeKind)
    (name : Option String) (typeKind : Option TypeKind) :
    (o.addScope kind name typeKind parent).2.Linked (if kind = .file then o.scopes.size :: files else files)
      groups where
  size_pos := by
    rw [size_addScope]
    exact Nat.succ_pos _
  kind {i s} hs := by
    rcases addScope_cases hs with ⟨rfl, rfl⟩ | ⟨hi, t, ht, rfl⟩
    · have hroot : o.scopes.size ≠ root := Nat.ne_of_gt h.size_pos
      by_cases hkind : kind = .file
      · rw [if_pos hkind]
        exact iff_of_true hkind (.inr (List.mem_cons_self ..))
      · rw [if_neg hkind]
        refine iff_of_false hkind ?_
        rintro (heq | hmem)
        · exact hroot heq
        · exact Nat.lt_irrefl _ (h.files_lt _ hmem)
    · refine (h.kind ht).trans (or_congr_right ?_)
      by_cases hkind : kind = .file
      · rw [if_pos hkind, List.mem_cons, or_iff_right hi]
      · rw [if_neg hkind]
  parent {i s} hs := by
    rcases addScope_cases hs with ⟨rfl, rfl⟩ | ⟨hi, t, ht, rfl⟩
    · exact iff_of_false nofun (Nat.ne_of_gt h.size_pos)
    · have hparent := h.parent ht
      exact hparent
  parent_lt {i p} hp := by
    rw [parentOf_addScope] at hp
    by_cases hi : i = o.scopes.size
    · rw [if_pos hi] at hp
      cases hp
      rwa [hi]
    · rw [if_neg hi] at hp
      exact h.parent_lt hp
  children {i s} hs := by
    rcases addScope_cases hs with ⟨rfl, rfl⟩ | ⟨hi, t, ht, rfl⟩
    · -- The new scope has no children: its parent and all scopes before it come first.
      refine ⟨.nil, fun j => iff_of_false List.not_mem_nil fun hj => ?_⟩
      rw [parentOf_addScope] at hj
      by_cases hlast : j = o.scopes.size
      · rw [if_pos hlast] at hj
        exact Nat.ne_of_lt hparent (Option.some.inj hj)
      · rw [if_neg hlast] at hj
        exact Nat.lt_asymm (h.parent_lt hj) (lt_size_of_parentOf hj)
    · obtain ⟨hsorted, hmem⟩ := h.children ht
      have hlt : ∀ j ∈ t.children.toList, j < o.scopes.size := fun j hj => lt_size_of_parentOf ((hmem j).mp hj)
      by_cases hself : parent = i
      · simp only [if_pos hself]
        refine ⟨pairwise_push hsorted hlt, fun j => ?_⟩
        rw [Array.toList_push, List.mem_append, List.mem_singleton, parentOf_addScope, hmem j]
        by_cases hlast : j = o.scopes.size
        · rw [if_pos hlast]
          exact iff_of_true (.inr hlast) (congrArg some hself)
        · rw [if_neg hlast, or_iff_left hlast]
      · simp only [if_neg hself]
        refine ⟨hsorted, fun j => ?_⟩
        rw [parentOf_addScope]
        by_cases hlast : j = o.scopes.size
        · rw [if_pos hlast]
          exact iff_of_false (fun hj => Nat.ne_of_lt (hlt j hj) hlast) fun heq => hself (Option.some.inj heq)
        · rw [if_neg hlast, hmem j]
  declarations {i s} hs := by
    rcases addScope_cases hs with ⟨rfl, rfl⟩ | ⟨hi, t, ht, rfl⟩
    · exact ⟨.nil, fun k => iff_of_false List.not_mem_nil fun hk => Nat.lt_irrefl _ (h.scope_lt hk)⟩
    · have hdeclarations := h.declarations ht
      exact hdeclarations
  scope_lt {k i} hk := by
    rw [size_addScope]
    exact Nat.lt_succ_of_lt (h.scope_lt hk)
  files_lt i hi := by
    rw [size_addScope]
    by_cases hkind : kind = .file
    · rw [if_pos hkind] at hi
      rcases List.mem_cons.mp hi with rfl | hi
      · exact Nat.lt_succ_self _
      · exact Nat.lt_succ_of_lt (h.files_lt i hi)
    · rw [if_neg hkind] at hi
      exact Nat.lt_succ_of_lt (h.files_lt i hi)
  groups := h.groups

theorem declare (h : o.Linked files groups) {scope : ScopeId} (hscope : scope < o.scopes.size) (d : Declaration) :
    (o.declare scope d).Linked files groups where
  size_pos := by
    rw [size_declare]
    exact h.size_pos
  kind hs := by
    obtain ⟨t, ht, rfl⟩ := declare_cases hs
    have hkind := h.kind ht
    exact hkind
  parent hs := by
    obtain ⟨t, ht, rfl⟩ := declare_cases hs
    have hparent := h.parent ht
    exact hparent
  parent_lt hp := by
    rw [parentOf_declare] at hp
    exact h.parent_lt hp
  children hs := by
    obtain ⟨t, ht, rfl⟩ := declare_cases hs
    simp only [parentOf_declare]
    exact h.children ht
  declarations {i s} hs := by
    obtain ⟨t, ht, rfl⟩ := declare_cases hs
    obtain ⟨hsorted, hmem⟩ := h.declarations ht
    have hlt : ∀ k ∈ t.declarations.toList, k < o.declarations.size := fun k hk =>
      lt_size_of_scopeOf ((hmem k).mp hk)
    by_cases hself : scope = i
    · simp only [if_pos hself]
      refine ⟨pairwise_push hsorted hlt, fun k => ?_⟩
      rw [Array.toList_push, List.mem_append, List.mem_singleton, scopeOf_declare, hmem k]
      by_cases hlast : k = o.declarations.size
      · rw [if_pos hlast]
        exact iff_of_true (.inr hlast) (congrArg some hself)
      · rw [if_neg hlast, or_iff_left hlast]
    · simp only [if_neg hself]
      refine ⟨hsorted, fun k => ?_⟩
      rw [scopeOf_declare]
      by_cases hlast : k = o.declarations.size
      · rw [if_pos hlast]
        exact iff_of_false (fun hk => Nat.ne_of_lt (hlt k hk) hlast) fun heq => hself (Option.some.inj heq)
      · rw [if_neg hlast, hmem k]
  scope_lt {k i} hk := by
    rw [size_declare]
    rw [scopeOf_declare] at hk
    by_cases hlast : k = o.declarations.size
    · rw [if_pos hlast] at hk
      cases hk
      exact hscope
    · rw [if_neg hlast] at hk
      exact h.scope_lt hk
  files_lt i hi := by
    rw [size_declare]
    exact h.files_lt i hi
  groups := h.groups

theorem addUsing (h : o.Linked files groups) (u : UsingDirective) : (o.addUsing u).Linked files groups :=
  ⟨h.size_pos, h.kind, h.parent, h.parent_lt, h.children, h.declarations, h.scope_lt, h.files_lt, h.groups⟩

theorem newGroup (h : o.Linked files groups) : o.newGroup.2.Linked files (groups ++ [o.newGroup.1]) where
  size_pos := h.size_pos
  kind := h.kind
  parent := h.parent
  parent_lt := h.parent_lt
  children := h.children
  declarations := h.declarations
  scope_lt := h.scope_lt
  files_lt := h.files_lt
  groups := by
    rw [h.groups]
    exact List.range_succ.symm

/-! ### The scopes around a scope -/

variable {i p : ScopeId}

theorem ancestors_of_parentOf (h : o.Linked files groups) (hp : o.parentOf i = some p) :
    o.ancestors i = i :: o.ancestors p := by
  rw [ancestors]
  rw [parentOf] at hp
  simp only [hp, if_pos (h.parent_lt hp)]

theorem ancestors_root (h : o.Linked files groups) : o.ancestors root = [root] := by
  have hparent : o.parentOf root = none := by
    cases hp : o.parentOf root with
    | none => rfl
    | some p => exact absurd (h.parent_lt hp) (Nat.not_lt_zero p)
  rw [ancestors]
  rw [parentOf] at hparent
  simp only [hparent]

theorem exists_parentOf (h : o.Linked files groups) (hi : i < o.scopes.size) (hne : i ≠ root) :
    ∃ p, o.parentOf i = some p ∧ p < i := by
  obtain ⟨s, hs⟩ := exists_scope hi
  have hparent : o.parentOf i = s.parent := by rw [parentOf, hs, Option.bind_some]
  cases hp : s.parent with
  | none => exact absurd ((h.parent hs).mp hp) hne
  | some p =>
    rw [hp] at hparent
    exact ⟨p, hparent, h.parent_lt hparent⟩

/-- The scopes around a scope are found from parent to parent, up to the file. -/
theorem ancestors_chain (h : o.Linked files groups) (hi : i < o.scopes.size) :
    (o.ancestors i).head? = some i ∧ (o.ancestors i).IsChain (fun j p => o.parentOf j = some p) ∧
      (o.ancestors i).getLast? = some root := by
  induction i using Nat.strongRecOn with
  | ind i ih =>
    by_cases hroot : i = root
    · rw [hroot, h.ancestors_root]
      exact ⟨rfl, .singleton _, rfl⟩
    · obtain ⟨p, hp, hlt⟩ := h.exists_parentOf hi hroot
      obtain ⟨hhead, hchain, hlast⟩ := ih p hlt (Nat.lt_trans hlt hi)
      obtain ⟨behind, hbehind⟩ := List.head?_eq_some_iff.mp hhead
      rw [h.ancestors_of_parentOf hp, hbehind]
      rw [hbehind] at hchain hlast
      refine ⟨rfl, List.isChain_cons_cons.mpr ⟨hp, hchain⟩, ?_⟩
      rw [List.getLast?_cons_cons]
      exact hlast

end Linked

/-- The outline is a tree: scopes and their children, as well as scopes and their declarations, fit together. -/
structure WellFormed (files : List ScopeId) (groups : List Nat) (o : Outline) : Prop where
  /-- Scope 0 is a file without a parent, and all other files were opened as such. -/
  root : ∃ s, o.scopes[root]? = some s ∧ s.parent = none
  file {i : ScopeId} {s : Scope} : o.scopes[i]? = some s → (s.kind = .file ↔ i = Outline.root ∨ i ∈ files)
  /-- Every other scope comes behind its parent. -/
  parent {i : ScopeId} {s : Scope} : o.scopes[i]? = some s → i ≠ Outline.root → ∃ p, s.parent = some p ∧ p < i
  /-- The children of a scope are listed in order, each once. -/
  children {i : ScopeId} {s : Scope} : o.scopes[i]? = some s →
    s.children.toList.Pairwise (· < ·) ∧ ∀ j : ScopeId, j ∈ s.children.toList ↔ o.parentOf j = some i
  /-- A declaration stands once in the list of its scope, and in no other one. -/
  listed {k : DeclarationId} {d : Declaration} : o.declarations[k]? = some d →
    ∃ s, o.scopes[d.scope]? = some s ∧ s.declarations.toList.count k = 1
  scope {i : ScopeId} {s : Scope} {k : DeclarationId} : o.scopes[i]? = some s → k ∈ s.declarations.toList →
    ∃ d, o.declarations[k]? = some d ∧ d.scope = i
  /-- No group number is handed out twice, also if numbers have 32 bits and there are enough of them. -/
  groups : groups.Nodup ∧ (groups.length ≤ UInt32.size → ∀ g ∈ groups, g < UInt32.size)
  /-- From parent to parent, every scope leads to the file. -/
  ancestors {i : ScopeId} : i < o.scopes.size →
    (o.ancestors i).head? = some i ∧ (o.ancestors i).IsChain (fun j p => o.parentOf j = some p) ∧
      (o.ancestors i).getLast? = some Outline.root
  /-- The type around a scope is the first one on that way. -/
  enclosingType {i : ScopeId} {kind : TypeKind} : i < o.scopes.size →
    (o.enclosingType i = some kind ↔ ∃ inner nearest outer, o.ancestors i = inner ++ nearest :: outer ∧
      o.typeKindOf nearest = some kind ∧ ∀ j ∈ inner, o.typeKindOf j = none)

theorem Linked.wellFormed {files : List ScopeId} {groups : List Nat} (h : o.Linked files groups) :
    o.WellFormed files groups where
  root := by
    obtain ⟨s, hs⟩ := exists_scope h.size_pos
    exact ⟨s, hs, (h.parent hs).mpr rfl⟩
  file hs := h.kind hs
  parent {i s} hs hne := by
    obtain ⟨hi, rfl⟩ := Array.getElem?_eq_some_iff.mp hs
    obtain ⟨p, hp, hlt⟩ := h.exists_parentOf hi hne
    rw [parentOf, hs, Option.bind_some] at hp
    exact ⟨p, hp, hlt⟩
  children hs := h.children hs
  listed {k d} hd := by
    have hscope : o.scopeOf k = some d.scope := by rw [scopeOf, hd, Option.map_some]
    obtain ⟨s, hs⟩ := exists_scope (h.scope_lt hscope)
    obtain ⟨hsorted, hmem⟩ := h.declarations hs
    have hnodup : s.declarations.toList.Nodup := hsorted.imp Nat.ne_of_lt
    exact ⟨s, hs, List.count_eq_one_of_mem hnodup ((hmem k).mpr hscope)⟩
  scope hs hk := Option.map_eq_some_iff.mp (((h.declarations hs).2 _).mp hk)
  groups := by
    rw [h.groups]
    refine ⟨List.nodup_range, fun hle g hg => ?_⟩
    rw [List.length_range] at hle
    exact Nat.lt_of_lt_of_le (List.mem_range.mp hg) hle
  ancestors hi := h.ancestors_chain hi
  enclosingType _ := by rw [Outline.enclosingType, List.findSome?_eq_some_iff]

/-- The scopes that can be used are those that were opened. -/
theorem Built.mem_ids_iff {ids files : List ScopeId} {groups : List Nat} (h : Built ids files groups o) (i : ScopeId) :
    i ∈ ids ↔ i < o.scopes.size := by
  induction h with
  | empty => exact List.mem_singleton.trans Nat.lt_one_iff.symm
  | addScope _ _ _ _ _ ih =>
    rw [List.mem_cons, ih, size_addScope, Nat.lt_succ_iff_lt_or_eq, or_comm]
    exact Iff.rfl
  | declare _ _ _ ih => rw [ih, size_declare]
  | addUsing _ _ ih => exact ih
  | newGroup _ ih => exact ih

theorem Built.linked {ids files : List ScopeId} {groups : List Nat} (h : Built ids files groups o) :
    o.Linked files groups := by
  induction h with
  | empty => exact .empty
  | addScope h kind name typeKind hparent ih =>
    exact ih.addScope ((h.mem_ids_iff _).mp hparent) kind name typeKind
  | declare h d hscope ih => exact ih.declare ((h.mem_ids_iff _).mp hscope) d
  | addUsing _ u ih => exact ih.addUsing u
  | newGroup _ ih => exact ih.newGroup

end Outline

end CSharpStyle
