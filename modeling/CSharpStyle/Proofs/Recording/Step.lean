import CSharpStyle.Grammar.CompilationUnit
import CSharpStyle.Proofs.Recording.Comma
import Mathlib.Logic.Relation

/-!
# Steps of a reading

Whatever a file holds, it is read in steps of a few kinds. Tokens are consumed, and some of them are held as names. A
name that is held is recorded, by itself or as the next one of a declaration with several declarators. The declarators
of one declaration make a group, which gets its number before the first of them is recorded. Each further one stands
behind a comma. While the value of a declarator is read, further groups may be opened and closed inside.

* `DeclaratorGroup`: a group, and the names recorded in it so far.
* `Stage`: a reading, the groups that are open, and the names that it holds.
* `Stage.Step`: what may happen next.
* `Outline.Grows admitted`: what this may do to an outline, if members of types have to be `admitted`.
* `Reading.Run admitted`: a reading that such steps lead to.
* `Reading.Run.invariant`: what each step keeps holds at the end of every run.
-/

namespace CSharpStyle

/-- The declarators of one declaration. -/
structure DeclaratorGroup where
  number : Nat
  scope : ScopeId
  role : Role
  kind : DeclarationKind
  accessibility : Accessibility
  /-- The names recorded so far, the last one first. -/
  names : List Token

namespace DeclaratorGroup

/-- The declaration records the next name of the group. -/
structure Next (g : DeclaratorGroup) (t : Token) (d : Declaration) : Prop where
  name : d.name = t.identifierName
  position : d.position = t.start
  role : d.role = g.role
  kind : d.kind = g.kind
  accessibility : d.accessibility = g.accessibility
  place : d.group = some ⟨g.number, g.names.length⟩

def add (g : DeclaratorGroup) (t : Token) : DeclaratorGroup := { g with names := t :: g.names }

end DeclaratorGroup

/-- Fields and local constants make a group, also where there is only one. -/
def Declaration.formsGroup (d : Declaration) : Bool :=
  d.kind == .field || (d.kind == .localVariable && d.role == .constant)

/-! ### Growing outlines -/

/-- What stands in the body of a type under its own name. -/
def DeclarationKind.isMember : DeclarationKind → Bool
  | type | field | property | method | event => true
  | _ => false

/-- The outline `o` grows in one step or stays what it is. A member of a type is recorded only if it is admitted. -/
inductive Outline.Grows (admitted : Declaration → Prop) (o : Outline) : Outline → Prop
  | same : Grows admitted o o
  | addScope (kind : ScopeKind) (name : Option String) (typeKind : Option TypeKind) (parent : ScopeId) :
      Grows admitted o (o.addScope kind name typeKind parent).2
  | declare {scope : ScopeId} {d : Declaration} (member : d.kind.isMember → admitted { d with scope }) :
      Grows admitted o (o.declare scope d)
  | addUsing (u : UsingDirective) : Grows admitted o (o.addUsing u)
  | newGroup : Grows admitted o o.newGroup.2

/-- Members of the type with this accessibility are admitted. -/
def Permits (admitted : Declaration → Prop) (scope : ScopeId) (accessibility : Accessibility) : Prop :=
  ∀ d : Declaration, d.scope = scope → d.accessibility = accessibility → admitted d

/-- Types in the scope with this accessibility are admitted. -/
def PermitsType (admitted : Declaration → Prop) (scope : ScopeId) (accessibility : Accessibility) : Prop :=
  ∀ d : Declaration, d.scope = scope → d.kind = .type → d.accessibility = accessibility → admitted d

/-! ### Steps -/

structure Stage where
  /-- The groups that are read, from the inside out. -/
  opened : List DeclaratorGroup
  /-- Names that were consumed and not recorded yet. -/
  held : List Token
  reading : Reading

namespace Stage

/-- In front of the first token. -/
def ofTokens (tokens : List Token) : Stage := ⟨[], [], .ofTokens tokens⟩

inductive Step : Stage → Stage → Prop
  /-- Tokens are consumed and nothing is recorded. What is held then was held or is new. -/
  | read {opened : List DeclaratorGroup} {held held' : List Token} {s s' : Reading}
      (covers : ∀ {consumed : List Token}, s.cursor.Covers (held ++ consumed) → s'.cursor.Covers (held' ++ consumed))
      (behind : s.cursor.before <:+ s'.cursor.before)
      (declarations : s'.outline.declarations = s.outline.declarations)
      (usings : s'.outline.usings = s.outline.usings) (groups : s'.outline.groups = s.outline.groups) :
      Step ⟨opened, held, s⟩ ⟨opened, held', s'⟩
  | declare {opened : List DeclaratorGroup} {held : List Token} {s : Reading} {t : Token} {d : Declaration}
      (scope : ScopeId) (name : d.name = t.identifierName) (position : d.position = t.start) (single : d.group = none)
      (apart : d.formsGroup = false) :
      Step ⟨opened, t :: held, s⟩ ⟨opened, held, s.declare scope d⟩
  | addUsing {opened : List DeclaratorGroup} {held : List Token} {s : Reading} {t : Token} {u : UsingDirective}
      (position : u.position = t.start) :
      Step ⟨opened, t :: held, s⟩ ⟨opened, held, { s with outline := s.outline.addUsing u }⟩
  | openGroup {opened : List DeclaratorGroup} {held : List Token} {s : Reading} {g : DeclaratorGroup}
      (number : g.number = s.newGroup.1) (fresh : g.names = []) :
      Step ⟨opened, held, s⟩ ⟨g :: opened, held, s.newGroup.2⟩
  /-- The innermost group goes on with a name that was consumed behind all its others. -/
  | record {opened : List DeclaratorGroup} {held : List Token} {s : Reading} {g : DeclaratorGroup} {t : Token}
      {d : Declaration} (next : g.Next t d) (behind : (t :: g.names).Sublist s.cursor.before)
      (joined : Joined s.cursor.before g.names t) :
      Step ⟨g :: opened, t :: held, s⟩ ⟨g.add t :: opened, held, s.declare g.scope d⟩
  | closeGroup {opened : List DeclaratorGroup} {held : List Token} {s : Reading} {g : DeclaratorGroup} :
      Step ⟨g :: opened, held, s⟩ ⟨opened, held, s⟩

/-- What was consumed stays behind the cursor. -/
theorem Step.suffix {σ τ : Stage} (h : Step σ τ) : σ.reading.cursor.before <:+ τ.reading.cursor.before := by
  cases h with
  | read covers behind => exact behind
  | declare | addUsing | openGroup | record | closeGroup => exact List.suffix_rfl

end Stage

/-- A step that records no members of types but those that are admitted. -/
structure Stage.AdmittedStep (admitted : Declaration → Prop) (σ τ : Stage) : Prop where
  step : σ.Step τ
  grows : σ.reading.outline.Grows admitted τ.reading.outline

/-- Steps lead from the stage `base` to the reading `s`, which has consumed what it holds. -/
structure Reading.Run (admitted : Declaration → Prop) (base : Stage) (opened : List DeclaratorGroup)
    (held : List Token) (s : Reading) : Prop where
  steps : Relation.ReflTransGen (Stage.AdmittedStep admitted) base ⟨opened, held, s⟩
  covered : s.cursor.Covers held

namespace Reading.Run

variable {admitted : Declaration → Prop} {base : Stage} {opened : List DeclaratorGroup} {held held' : List Token}
  {s s' : Reading} {t : Token}

/-- What each step keeps holds at the end of every run. -/
theorem invariant {I : Stage → Prop} (hstep : ∀ {σ τ : Stage}, σ.Step τ → I σ → I τ)
    (h : s.Run admitted base opened held) (hbase : I base) : I ⟨opened, held, s⟩ := by
  have hsteps := h.steps
  generalize (⟨opened, held, s⟩ : Stage) = σ at hsteps ⊢
  induction hsteps with
  | refl => exact hbase
  | tail _ hlast ih => exact hstep hlast.step ih

theorem outlines (h : s.Run admitted base opened held) :
    Relation.ReflTransGen (Outline.Grows admitted) base.reading.outline s.outline :=
  h.steps.lift (·.reading.outline) fun _ _ hstep => hstep.grows

theorem refl (s : Reading) : s.Run admitted ⟨[], [], s⟩ [] [] := ⟨.refl, List.nil_subperm⟩

/-- A run begins wherever another one ends. -/
theorem start (h : s.Run admitted base opened held) : s.Run admitted ⟨opened, held, s⟩ opened held :=
  ⟨.refl, h.covered⟩

theorem suffix (h : s.Run admitted base opened held) : base.reading.cursor.before <:+ s.cursor.before :=
  h.invariant (I := fun σ => base.reading.cursor.before <:+ σ.reading.cursor.before)
    (fun hstep hbehind => hbehind.trans hstep.suffix) List.suffix_rfl

/-! ### Steps of a run -/

theorem read (h : s.Run admitted base opened held)
    (hcovers : ∀ {consumed : List Token}, s.cursor.Covers (held ++ consumed) → s'.cursor.Covers (held' ++ consumed))
    (hcursor : s.cursor.before <:+ s'.cursor.before) (houtline : s'.outline = s.outline) :
    s'.Run admitted base opened held' := by
  have hstep : Stage.Step ⟨opened, held, s⟩ ⟨opened, held', s'⟩ :=
    .read hcovers hcursor (by rw [houtline]) (by rw [houtline]) (by rw [houtline])
  refine ⟨h.steps.tail ⟨hstep, houtline ▸ .same⟩, ?_⟩
  have hcovered : s'.cursor.Covers (held' ++ []) := by
    refine hcovers ?_
    rw [List.append_nil]
    exact h.covered
  rwa [List.append_nil] at hcovered

theorem addScope (h : s.Run admitted base opened held) (kind : ScopeKind) (name : Option String)
    (typeKind : Option TypeKind) (parent : ScopeId) :
    Run admitted base opened held { s with outline := (s.outline.addScope kind name typeKind parent).2 } :=
  ⟨h.steps.tail ⟨.read id List.suffix_rfl rfl rfl rfl, .addScope kind name typeKind parent⟩, h.covered⟩

/-- Recording a name spends it. -/
theorem declare (h : s.Run admitted base opened (t :: held)) (scope : ScopeId) {d : Declaration}
    (hname : d.name = t.identifierName) (hposition : d.position = t.start) (hsingle : d.group = none)
    (hapart : d.formsGroup = false) (hmember : d.kind.isMember → admitted { d with scope }) :
    (s.declare scope d).Run admitted base opened held :=
  ⟨h.steps.tail ⟨.declare scope hname hposition hsingle hapart, .declare hmember⟩, h.covered.tail⟩

/-- Recording a directive spends its first token. -/
theorem addUsing (h : s.Run admitted base opened (t :: held)) {u : UsingDirective} (hposition : u.position = t.start) :
    Run admitted base opened held { s with outline := s.outline.addUsing u } :=
  ⟨h.steps.tail ⟨.addUsing hposition, .addUsing u⟩, h.covered.tail⟩

theorem openGroup (h : s.Run admitted base opened held) (scope : ScopeId) (role : Role) (kind : DeclarationKind)
    (accessibility : Accessibility) :
    s.newGroup.2.Run admitted base (⟨s.newGroup.1, scope, role, kind, accessibility, []⟩ :: opened) held :=
  ⟨h.steps.tail ⟨.openGroup rfl rfl, .newGroup⟩, h.covered⟩

/-- Recording the next name of a group spends it. -/
theorem record {g : DeclaratorGroup} (h : s.Run admitted base (g :: opened) (t :: held)) {d : Declaration}
    (hnext : g.Next t d) (hbehind : (t :: g.names).Sublist s.cursor.before) (hjoined : Joined s.cursor.before g.names t)
    (hmember : d.kind.isMember → admitted { d with scope := g.scope }) :
    (s.declare g.scope d).Run admitted base (g.add t :: opened) held :=
  ⟨h.steps.tail ⟨.record hnext hbehind hjoined, .declare hmember⟩, h.covered.tail⟩

theorem closeGroup {g : DeclaratorGroup} (h : s.Run admitted base (g :: opened) held) :
    s.Run admitted base opened held := ⟨h.steps.tail ⟨.closeGroup, .same⟩, h.covered⟩

end Reading.Run

end CSharpStyle
