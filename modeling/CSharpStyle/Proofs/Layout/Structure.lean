import CSharpStyle.Proofs.Correspondence.Invariant

/-!
# Structure does not depend on layout

Two files whose tokens agree in kind and text have the same structure, wherever the tokens stand. Scopes, declarations
and directives are the same but for their places, the same defects are reported in the same order, and a place in one
file is the start of the token with the same number as in the other.

* `Position.SameToken`: two places are the starts of the tokens with the same number in two files.
* `CompilationUnit.Alike`: the units differ at most in their places, and these are related.
* `Correspondence.sameTokens`: readings of two such files correspond.
* `CompilationUnit.alike_of_tokens`: files with alike tokens have alike units.
-/

namespace CSharpStyle

/-- The starts of the tokens with the same number in two files. -/
def Position.SameToken (tokens tokens' : List Token) (p q : Position) : Prop :=
  ∃ (i : Nat) (t u : Token), tokens[i]? = some t ∧ tokens'[i]? = some u ∧ p = t.start ∧ q = u.start

/-- The defects are the same, and their places are related. -/
structure StructureError.Alike (positions : Position → Position → Prop) (e f : StructureError) : Prop where
  defect : e.defect = f.defect
  position : positions e.position f.position

/-- The outlines differ at most in the places of declarations and directives, and these are related. -/
structure Outline.Alike (positions : Position → Position → Prop) (o p : Outline) : Prop where
  scopes : o.scopes = p.scopes
  declarations : List.Forall₂ (fun d e : Declaration => d.Alike positions Eq e ∧ d.scope = e.scope)
    o.declarations.toList p.declarations.toList
  usings : List.Forall₂ (UsingDirective.Alike positions) o.usings.toList p.usings.toList
  groups : o.groups = p.groups

/-- The units differ at most in the places of what they hold, and these are related. -/
structure CompilationUnit.Alike (positions : Position → Position → Prop) (u v : CompilationUnit) : Prop where
  outline : u.outline.Alike positions v.outline
  errors : List.Forall₂ (StructureError.Alike positions) u.errors v.errors

namespace Outline.Alike

variable {positions : Position → Position → Prop} {o p : Outline}

theorem empty : Outline.empty.Alike positions .empty := ⟨rfl, .nil, .nil, rfl⟩

theorem addScope (h : o.Alike positions p) (kind : ScopeKind) (name : Option String) (typeKind : Option TypeKind)
    (parent : ScopeId) :
    (o.addScope kind name typeKind parent).2.Alike positions (p.addScope kind name typeKind parent).2 where
  scopes := by simp only [Outline.addScope, h.scopes]
  declarations := h.declarations
  usings := h.usings
  groups := h.groups

theorem declare (h : o.Alike positions p) (scope : ScopeId) {d e : Declaration} (hde : d.Alike positions Eq e) :
    (o.declare scope d).Alike positions (p.declare scope e) where
  scopes := by
    have hsize : o.declarations.size = p.declarations.size := h.declarations.length_eq
    simp only [Outline.declare, h.scopes, hsize]
  declarations := by
    have hscoped : ({ d with scope } : Declaration).Alike positions Eq { e with scope } :=
      ⟨hde.name, hde.role, hde.kind, hde.accessibility, hde.localDetail, hde.position, hde.group⟩
    simpa only [Outline.declare, Array.toList_push] using
      List.rel_append h.declarations (.cons ⟨hscoped, rfl⟩ .nil)
  usings := h.usings
  groups := h.groups

theorem addUsing (h : o.Alike positions p) {u v : UsingDirective} (huv : u.Alike positions v) :
    (o.addUsing u).Alike positions (p.addUsing v) where
  scopes := h.scopes
  declarations := h.declarations
  usings := by
    simpa only [Outline.addUsing, Array.toList_push] using List.rel_append h.usings (.cons huv .nil)
  groups := h.groups

theorem newGroup (h : o.Alike positions p) : o.newGroup.2.Alike positions p.newGroup.2 :=
  ⟨h.scopes, h.declarations, h.usings, congrArg (· + 1) h.groups⟩

end Outline.Alike

/-- Alike tokens with the same number in two files. -/
structure Token.SameNumber (tokens tokens' : List Token) (t u : Token) : Prop where
  alike : t.Alike u
  number : ∃ i : Nat, tokens[i]? = some t ∧ tokens'[i]? = some u

theorem Token.SameNumber.start {tokens tokens' : List Token} {t u : Token} (h : t.SameNumber tokens tokens' u) :
    t.start.SameToken tokens tokens' u.start := by
  obtain ⟨i, ht, hu⟩ := h.number
  exact ⟨i, t, u, ht, hu, rfl, rfl⟩

theorem Token.forall₂_alike_iff {tokens tokens' : List Token} :
    List.Forall₂ Token.Alike tokens tokens' ↔
      tokens.map (fun t => (t.kind, t.text)) = tokens'.map fun t => (t.kind, t.text) := by
  rw [← List.forall₂_eq_eq_eq, List.forall₂_map_left_iff, List.forall₂_map_right_iff]
  constructor
  · exact List.Forall₂.imp fun _ _ h => Prod.ext h.kind h.text
  · exact List.Forall₂.imp fun _ _ h => ⟨congrArg Prod.fst h, congrArg Prod.snd h⟩

/-- Tokens that agree one by one agree with their numbers. -/
theorem Token.forall₂_sameNumber {tokens tokens' : List Token} (h : List.Forall₂ Token.Alike tokens tokens') :
    List.Forall₂ (Token.SameNumber tokens tokens') tokens tokens' := by
  rw [List.forall₂_iff_get] at h ⊢
  obtain ⟨hlength, halike⟩ := h
  refine ⟨hlength, fun i hi hi' => ?_⟩
  constructor
  · exact halike i hi hi'
  · exact ⟨i, List.getElem?_eq_getElem hi, List.getElem?_eq_getElem hi'⟩

/-- The cursors stand behind the same number of tokens in their files. -/
structure Cursor.SamePlace (tokens tokens' : List Token) (c d : Cursor) : Prop where
  before : List.Forall₂ (Token.SameNumber tokens tokens') c.before d.before
  ahead : List.Forall₂ (Token.SameNumber tokens tokens') c.ahead d.ahead
  inside : c.Over tokens ∧ d.Over tokens'

namespace Cursor.SamePlace

variable {tokens tokens' : List Token} {c d c' d' : Cursor}

theorem next (h : c.SamePlace tokens tokens' d) (hne : c.ahead ≠ []) : c.next.SamePlace tokens tokens' d.next := by
  obtain ⟨before, _ | ⟨t, ahead⟩⟩ := c
  · exact absurd rfl hne
  obtain ⟨before', ahead'⟩ := d
  have hover' : (Cursor.mk before' ahead').next.Over tokens' := h.inside.2.next fun hnil => by
    have hlength := h.ahead.length_eq
    simp_all
  have hover := h.inside.1.next hne
  cases h.ahead with
  | cons htu hrest => exact ⟨.cons htu h.before, hrest, hover, hover'⟩

theorem eq_of_size (h : c.SamePlace tokens tokens' d) (h' : c'.SamePlace tokens tokens' d')
    (hsize : c.size = c'.size) : c = c' ∧ d = d' := by
  have hsize' : d.size = d'.size := by
    have hcd : c.size = d.size := h.ahead.length_eq
    have hcd' : c'.size = d'.size := h'.ahead.length_eq
    omega
  exact ⟨h.inside.1.eq_of_size h'.inside.1 hsize, h.inside.2.eq_of_size h'.inside.2 hsize'⟩

end Cursor.SamePlace

namespace Reading

variable {tokens tokens' : List Token} {s t : Reading}

theorem isBehindArrow_eq (h : s.cursor.SamePlace tokens tokens' t.cursor) : s.isBehindArrow = t.isBehindArrow := by
  rw [isBehindArrow, isBehindArrow]
  have hbefore := h.before
  generalize s.cursor.before = xs, t.cursor.before = ys at hbefore
  cases hbefore with
  | nil => rfl
  | cons htu _ => exact htu.alike.isPunctuation "=>"

/-- A file with a token has no other places than the starts of its tokens. -/
theorem position_sameToken (h : s.cursor.SamePlace tokens tokens' t.cursor) (hne : tokens ≠ []) :
    s.position.SameToken tokens tokens' t.position := by
  rw [position, position]
  have hbefore := h.before
  have hahead := h.ahead
  have hover := h.inside.1
  rw [Cursor.Over] at hover
  generalize s.cursor.before = xs, t.cursor.before = ys at hbefore hover
  generalize s.cursor.ahead = zs, t.cursor.ahead = ws at hahead hover
  cases hahead with
  | cons htu _ => exact htu.start
  | nil =>
    cases hbefore with
    | cons htu _ => exact htu.start
    | nil => exact absurd hover.symm hne

end Reading

namespace Correspondence

/-- The readings of two files with alike tokens go on side by side. -/
def sameTokens (tokens tokens' : List Token) (hne : tokens ≠ []) : Correspondence where
  tokens := Token.SameNumber tokens tokens'
  positions := Position.SameToken tokens tokens'
  groups := Eq
  cursors := Cursor.SamePlace tokens tokens'
  outlines := Outline.Alike (Position.SameToken tokens tokens')
  scopes _ _ := Eq
  errors e f := List.Forall₂ (StructureError.Alike (Position.SameToken tokens tokens')) e.toList f.toList
  alike h := h.alike
  start h := h.start
  ahead h := h.ahead
  next h hne := h.next hne
  eq_of_size h h' hsize := h.eq_of_size h' hsize
  behindArrow h _ := Reading.isBehindArrow_eq h
  position h := Reading.position_sameToken h hne
  addScope kind name typeKind _ h hij := by
    subst hij
    have hsize : _ = _ := congrArg Array.size h.scopes
    exact ⟨h.addScope kind name typeKind _, hsize, id⟩
  declare h hij hde := by
    subst hij
    exact ⟨h.declare _ hde, id⟩
  newGroup h := ⟨h.groups, h.newGroup, id⟩
  addUsing h huv := ⟨h.addUsing huv, id⟩
  scopeName h hij := by rw [Outline.scopeName, Outline.scopeName, h.scopes, hij]
  typeKindOf h hij := by rw [Outline.typeKindOf, Outline.typeKindOf, h.scopes, hij]
  report {e f p q} defect h hpq := by
    have halike : StructureError.Alike (Position.SameToken tokens tokens') ⟨defect, p⟩ ⟨defect, q⟩ := ⟨rfl, hpq⟩
    simpa only [Array.toList_push] using List.rel_append h (.cons halike .nil)

end Correspondence

/-- Files with alike tokens have alike units. -/
theorem CompilationUnit.alike_of_tokens {tokens tokens' : List Token} (h : List.Forall₂ Token.Alike tokens tokens') :
    (ofTokens tokens).Alike (Position.SameToken tokens tokens') (ofTokens tokens') := by
  by_cases hne : tokens = []
  · -- Nothing is recorded of an empty file, so that its one place does not matter.
    subst hne
    cases h
    have hempty : ofTokens [] = ⟨.empty, []⟩ := by decide +kernel
    rw [hempty]
    exact ⟨.empty, .nil⟩
  · let C := Correspondence.sameTokens tokens tokens' hne
    have hstart : C.Related (.ofTokens tokens) (.ofTokens tokens') :=
      ⟨⟨.nil, Token.forall₂_sameNumber h, rfl, rfl⟩, .empty, .nil, rfl, rfl⟩
    have hbody : NamespaceBody.file.Alike C.positions (C.scopes Outline.empty Outline.empty) NamespaceBody.file :=
      ⟨rfl, rfl, .none⟩
    have hend := (Correspondence.namespaceBody hstart hbody).1.related
    exact ⟨hend.outline, hend.errors⟩

end CSharpStyle
