import CSharpStyle.Proofs.Correspondence.Member
import CSharpStyle.Proofs.Recording.Statement

/-!
# Steps through types and their members

The name of a field is held from the comma in front of it until its own round records it, as the next member of the
group of the fields. A member whose name is qualified by an interface is not recorded, and its name is dropped.

* `Reading.Run.fields`: the fields of a declaration are recorded as the members of a group.
* `Reading.Run.namedMember`: what a member holds is recorded or dropped at its end.
* `Reading.Run.memberBehind`: a member, if its accessibility is permitted in its type.
* `TypeReader.Keeps`: what is open and held in front of a type is so behind it.
* `TypeDeclaration.keeps`: it holds of types, by induction on the tokens ahead.
-/

namespace CSharpStyle

namespace Reading.Run

variable {admitted : Declaration → Prop} {base : Stage} {opened : List DeclaratorGroup} {held : List Token}
  {s : Reading} {name : Token} {place : Place} {header : Header}

theorem declareMember (h : s.Run admitted base opened (name :: held))
    (hown : Permits admitted place.scope (header.modifiers.accessibilityIn place.owner)) (kind : DeclarationKind)
    (hfield : kind ≠ .field) (hlocal : kind ≠ .localVariable) :
    (s.declareMember place header name kind none).Run admitted base opened held :=
  h.declare _ rfl rfl rfl (by simp [Declaration.formsGroup, hfield, hlocal]) fun _ => hown _ rfl rfl

theorem declareType (h : s.Run admitted base opened (name :: held)) {scope : ScopeId} {accessibility : Accessibility}
    (hown : PermitsType admitted scope accessibility) (role : Role) :
    (s.declareName scope name role .type accessibility).Run admitted base opened held :=
  h.declare scope rfl rfl rfl rfl fun _ => hown _ rfl rfl rfl

theorem statementEnd (h : s.Run admitted base opened held) (scope : ScopeId) :
    (Reading.statementEnd scope s).Run admitted base opened held :=
  h.skipToStatementEnd Statement.keeps scope

/-! ### Accessors -/

theorem accessorRound (h : s.Run admitted base opened held) (opening : Position) (scope : ScopeId) :
    (Reading.accessorRound opening scope s).All (Run admitted base opened held) (Run admitted base opened held) := by
  have hheader := h.header
  rw [Reading.accessorRound]
  simp only
  split
  · exact hheader.reportAt _ _
  · split
    · split
      · exact (hheader.next.eat ‹_›).statementEnd scope
      · exact hheader.next
    · split
      · split
        · exact hheader.next.eat ‹_›
        · exact (hheader.next.methodBody Statement.keeps scope).settle
      · exact (hheader.report _).recover

theorem accessors (h : s.Run admitted base opened held) (scope : ScopeId) :
    (Reading.accessors scope s).Run admitted base opened held := by
  rw [Reading.accessors]
  split
  · exact (h.eat ‹_›).statementEnd scope
  · split
    · exact h.report _
    · exact rounds_all (fun h => h.accessorRound _ scope) stall (h.eat ‹_›)

/-! ### Fields -/

/-- The group of the fields or events that are read. -/
def fieldGroup (place : Place) (header : Header) (kind : DeclarationKind) (group : Nat) (names : List Token) :
    DeclaratorGroup :=
  ⟨group, place.scope, .ofMember kind header.modifiers place.owner, kind,
    header.modifiers.accessibilityIn place.owner, names⟩

/-- The declarators in front of the name that was read last were recorded as the members of their group. This name
follows them. -/
def BehindFieldName (admitted : Declaration → Prop) (base : Stage) (opened : List DeclaratorGroup) (held : List Token)
    (place : Place) (header : Header) (kind : DeclarationKind) (group : Nat) (state : (Token × Nat) × Reading) : Prop :=
  ∃ names, state.2.Run admitted base (fieldGroup place header kind group names :: opened) (state.1.1 :: held) ∧
    names.length = state.1.2 ∧ (state.1.1 :: names).Sublist state.2.cursor.before ∧
      Joined state.2.cursor.before names state.1.1

section Members

variable (hown : Permits admitted place.scope (header.modifiers.accessibilityIn place.owner))
include hown

/-- A round records the name that the round before it has read. -/
theorem fieldRound {kind : DeclarationKind} {group : Nat} {state : (Token × Nat) × Reading}
    (h : BehindFieldName admitted base opened held place header kind group state) :
    (Reading.fieldRound place header kind group state).All
      (BehindFieldName admitted base opened held place header kind group) (Attempt.Run admitted base opened held) := by
  obtain ⟨⟨name, index⟩, s⟩ := state
  obtain ⟨names, h, rfl, hbehind, hjoined⟩ := h
  have hdeclared : (s.declareMember place header name kind (some ⟨group, names.length⟩)).Run admitted base
      (fieldGroup place header kind group (name :: names) :: opened) held :=
    Run.record h ⟨rfl, rfl, rfl, rfl, rfl, rfl⟩ hbehind hjoined fun _ => hown _ rfl rfl
  have hvalue := (hdeclared.skipGroupAt "[").skipValue Statement.keeps place.scope
  rw [Reading.fieldRound]
  split
  · rename_i after heat
    have hafter : (name :: names).Sublist after.cursor.before :=
      hbehind.trans (((hdeclared.start.skipGroupAt "[").skipValue Statement.keeps place.scope).eat heat).suffix.sublist
    split
    · rename_i next behind hname
      exact ⟨name :: names, (hvalue.eat heat).name hname, rfl, before_of_name? hname ▸ hafter.cons_cons next,
        joined_of_name? (joins_of_eat? heat (List.cons_ne_nil name names)) hname⟩
    · exact (hvalue.eat heat).closeGroup.report _
  · split
    · exact (hvalue.eat ‹_›).closeGroup
    · exact hvalue.closeGroup.report _

theorem fields (h : s.Run admitted base opened (name :: held)) (hjoined : Joined s.cursor.before [] name)
    (kind : DeclarationKind) : (Reading.fields place header name kind s).Run admitted base opened held := by
  have hname : [name].Sublist s.cursor.before := List.singleton_sublist.mpr (h.covered.subset List.mem_cons_self)
  have hstart : BehindFieldName admitted base opened held place header kind s.newGroup.1 ((name, 0), s.newGroup.2) :=
    ⟨[], h.openGroup _ _ _ _, rfl, hname, hjoined⟩
  refine rounds_all (Q := Attempt.Run admitted base opened held) (fieldRound hown) (fun {state} h => ?_) hstart
  obtain ⟨names, h, -, -, -⟩ := h
  exact h.tail.closeGroup.stall

end Members

/-! ### Members -/

/-- The last segment of a name is held in place of the first one. -/
theorem memberName {first : Token} (h : s.Run admitted base opened (first :: held)) :
    (Reading.memberName first s).2.Run admitted base opened ((Reading.memberName first s).1.1 :: held) := by
  refine h.read (fun {consumed} hcovers => ?_) (Cursor.suffix_qualifiedMember first false s.cursor) rfl
  exact hcovers.qualifiedMember false

section Members

variable (hown : Permits admitted place.scope (header.modifiers.accessibilityIn place.owner))
include hown

theorem memberWithAccessors (h : s.Run admitted base opened (name :: held)) (isExplicit : Bool) (kind : DeclarationKind)
    (hfield : kind ≠ .field) (hlocal : kind ≠ .localVariable) :
    (Reading.memberWithAccessors place header name isExplicit kind s).Run admitted base opened held := by
  have hnamed : (if isExplicit then s else s.declareMember place header name kind none).Run admitted base opened
      held := by
    split
    · exact h.tail
    · exact h.declareMember hown kind hfield hlocal
  exact (hnamed.openScope .method (some name.identifierName) place.scope).accessors _

theorem event (h : s.Run admitted base opened held) : (Reading.event place header s).Run admitted base opened held := by
  rw [Reading.event]
  split
  · exact h.report _
  · have htype := h.type ‹_›
    split
    · exact htype.report _
    · rename_i first after hfirst
      have hname := (htype.name hfirst).memberName
      have hjoined : Joined after.cursor.before [] first := joined_of_name? (joins_of_type? ‹_›) hfirst
      simp only
      split
      · exact hname.memberWithAccessors hown _ .event (by decide) (by decide)
      · exact hname.fields hown (Cursor.joined_qualifiedMember hjoined false) .event

theorem namedMember {first : Token} (h : s.Run admitted base opened (first :: held))
    (hjoined : Joined s.cursor.before [] first) :
    (Reading.namedMember place header first s).Run admitted base opened held := by
  have hname := h.memberName
  rw [Reading.namedMember]
  simp only
  split
  · have hnamed : (if (s.memberName first).1.2 then (s.memberName first).2 else
        (s.memberName first).2.declareMember place header (s.memberName first).1.1 .method none).Run admitted base
          opened held := by
      split
      · exact hname.tail
      · exact hname.declareMember hown .method (by decide) (by decide)
    exact hnamed.methodRest Statement.keeps place.scope _
  · split
    · exact hname.memberWithAccessors hown _ .property (by decide) (by decide)
    · split
      · exact hname.fields hown (Cursor.joined_qualifiedMember hjoined false) .field
      · exact hname.tail.report _

theorem typedMember (h : s.Run admitted base opened held) :
    (Reading.typedMember place header s).Run admitted base opened held := by
  have href : ((s.eatKeyword? "ref").elim s (·.move (·.skipKeyword "readonly"))).Run admitted base opened held := by
    cases heat : s.eatKeyword? "ref" with
    | none => exact h
    | some behind => exact (h.eatKeyword heat).move (Cursor.suffix_skipKeyword _ "readonly")
  rw [Reading.typedMember]
  simp only
  split
  · exact href.report _
  · have htype := href.type ‹_›
    split
    · have hopen := htype.next.openScope .method (some "this") place.scope
      exact (hopen.parameterList Statement.keeps _ .parameter .parameter rfl (by decide)).accessors _
    · split
      · exact ((htype.eatKeyword ‹_›).skipWhile _).methodRest Statement.keeps place.scope "operator"
      · split
        · exact (htype.name ‹_›).namedMember hown (joined_of_name? (joins_of_type? ‹_›) ‹_›)
        · exact htype.report _

end Members

theorem conversionOperator (h : s.Run admitted base opened held) (scope : ScopeId) :
    (Reading.conversionOperator scope s).Run admitted base opened held := by
  rw [Reading.conversionOperator]
  split
  · exact h.report _
  · have hoperator := h.eatKeyword ‹_›
    split
    · exact hoperator.report _
    · exact (hoperator.type ‹_›).methodRest Statement.keeps scope "operator"

theorem finalizer (h : s.Run admitted base opened held) (scope : ScopeId) :
    (Reading.finalizer scope s).Run admitted base opened held := by
  rw [Reading.finalizer]
  split
  · exact h.report _
  · exact (h.name ‹_›).tail.methodRest Statement.keeps scope "finalizer"

/-! ### Bodies of types -/

theorem enumRound (h : s.Run admitted base opened held) (opening : Position) (scope : ScopeId) :
    (Reading.enumRound opening scope s).All (Run admitted base opened held) (Run admitted base opened held) := by
  have hattributes := h.skipAttributes
  rw [Reading.enumRound]
  simp only
  split
  · exact hattributes.reportAt _ _
  · split
    · exact hattributes.next
    · split
      · exact (hattributes.report _).next
      · have hdeclared := (hattributes.name ‹_›).declareName scope .publicMember .enumMember .isPublic rfl (by decide)
        have hvalue := hdeclared.skipValue Statement.keeps scope
        split
        · exact hvalue.eat ‹_›
        · split
          · exact hvalue
          · exact (hvalue.report _).recover

theorem enumBody (h : s.Run admitted base opened held) (opening : Position) (scope : ScopeId) :
    (Reading.enumBody opening scope s).Run admitted base opened held :=
  rounds_all (fun h => h.enumRound opening scope) stall h

theorem delegate (h : s.Run admitted base opened held) {scope : ScopeId}
    (hown : PermitsType admitted scope header.modifiers.accessibility) :
    (Reading.delegate scope header s).Run admitted base opened held := by
  rw [Reading.delegate]
  split
  · exact (h.report _).recover
  · have htype := h.type ‹_›
    split
    · exact (htype.report _).recover
    · rename_i name behind hname
      let inner := (behind.declareName scope name .typeName .type header.modifiers.accessibility).openScope .method
        (some name.identifierName) scope
      have hopen : inner.2.Run admitted base opened held :=
        ((htype.name hname).declareType hown .typeName).openScope .method (some name.identifierName) scope
      have hparameters := hopen.typeParameters inner.1
      have hlist : (if (inner.2.typeParameters inner.1).sees "(" then
          Reading.parameterList Statement.read inner.1 .parameter .parameter (inner.2.typeParameters inner.1)
          else inner.2.typeParameters inner.1).Run admitted base opened held := by
        split
        · exact hparameters.parameterList Statement.keeps inner.1 .parameter .parameter rfl (by decide)
        · exact hparameters
      simp only
      split
      · exact hlist.skipConstraints.eat ‹_›
      · exact (hlist.skipConstraints.report _).recover

theorem primaryParameters (h : s.Run admitted base opened held) (scope : ScopeId) (kind : TypeKind) (name : Token) :
    (Reading.primaryParameters scope kind name s).Run admitted base opened held := by
  rw [Reading.primaryParameters]
  split
  · split
    · exact h.parameterList Statement.keeps scope .publicMember .recordProperty rfl (by decide)
    · have hopen := h.openScope .method (some name.identifierName) scope
      exact hopen.parameterList Statement.keeps _ .parameter .parameter rfl (by decide)
  · exact h

/-- A type is recorded, and what stands in front of its body is read. -/
theorem frontOfBody (h : s.Run admitted base opened (name :: held)) {scope : ScopeId} (kind : TypeKind)
    (hown : PermitsType admitted scope (typeAccessibility header (s.outline.typeKindOf scope))) :
    (Reading.frontOfBody kind scope header name s).2.Run admitted base opened held := by
  let declared := s.declareName scope name (typeRole kind) .type (typeAccessibility header (s.outline.typeKindOf scope))
  let inner := declared.openType kind name.identifierName scope
  have hdeclared := h.declareType hown (typeRole kind)
  have hparameters := (hdeclared.openType kind name.identifierName scope).typeParameters inner.1
  exact (hparameters.primaryParameters inner.1 kind name).skipUntil isBodyMark

/-- A member records what is permitted in its type. The types among the members are left to their own reader. -/
theorem memberBehind {typeDeclaration : TypeReader} (h : s.Run admitted base opened held)
    (htype : s.cursor.seesTypeDeclaration →
      (typeDeclaration place.scope header s).Run admitted base opened held)
    (hown : s.cursor.seesTypeDeclaration = false →
      Permits admitted place.scope (header.modifiers.accessibilityIn place.owner)) :
    (Reading.memberBehind typeDeclaration place header s).Run admitted base opened held := by
  rw [Reading.memberBehind]
  split
  · exact h
  · split
    · exact h
    · split
      · exact htype ‹_›
      · have hown := hown (Bool.eq_false_iff.mpr ‹_›)
        split
        · exact h.next.event hown
        · split
          · exact h.next.conversionOperator place.scope
          · split
            · exact h.next.finalizer place.scope
            · split
              · exact h.next.methodRest Statement.keeps place.scope _
              · exact h.typedMember hown

end Reading.Run

/-! ### Types -/

/-- Steps lead through every type, and leave open and held what was, if everything is admitted. -/
structure TypeReader.Keeps (typeDeclaration : TypeReader) : Prop where
  read {admitted : Declaration → Prop} {base : Stage} {opened : List DeclaratorGroup} {held : List Token} {s : Reading}
    (hall : ∀ d, admitted d) (h : s.Run admitted base opened held) (scope : ScopeId) (header : Header) :
    (typeDeclaration scope header s).Run admitted base opened held

namespace Reading.Run

variable {admitted : Declaration → Prop} {base : Stage} {opened : List DeclaratorGroup} {held : List Token}
  {s : Reading} {typeDeclaration : TypeReader} (hall : ∀ d, admitted d) (htype : typeDeclaration.Keeps)

include hall htype

theorem member (h : s.Run admitted base opened held) (place : Place) :
    (Reading.member typeDeclaration place s).Run admitted base opened held :=
  h.header.memberBehind (fun _ => htype.read hall h.header place.scope _) fun _ d _ _ => hall d

theorem typeBodyRound (h : s.Run admitted base opened held) (opening : Position) (place : Place) :
    (Reading.typeBodyRound typeDeclaration opening place s).All (Run admitted base opened held)
      (Run admitted base opened held) := by
  rw [Reading.typeBodyRound]
  split
  · exact h.reportAt _ _
  · split
    · exact h.next
    · split
      · exact h.next
      · exact progress (h.member hall htype place).settle

theorem typeBody (h : s.Run admitted base opened held) (opening : Position) (place : Place) :
    (Reading.typeBody typeDeclaration opening place s).Run admitted base opened held :=
  rounds_all (fun h => h.typeBodyRound hall htype opening place) stall h

theorem bodyOfType (h : s.Run admitted base opened held) (scope : ScopeId) (kind : TypeKind) :
    (Reading.bodyOfType typeDeclaration scope kind s).Run admitted base opened held := by
  rw [Reading.bodyOfType]
  split
  · have hinner := h.eat ‹_›
    simp only
    split
    · exact (hinner.enumBody _ scope).skip ";"
    · exact (hinner.typeBody hall htype _ ⟨scope, kind⟩).skip ";"
  · exact h.require ";" _

theorem namedType (h : s.Run admitted base opened held) (word : String) (kind : TypeKind) (scope : ScopeId)
    (header : Header) :
    (Reading.namedType typeDeclaration word kind scope header s).Run admitted base opened held := by
  rw [Reading.namedType_eq]
  split
  · exact (h.report _).recover
  · exact ((h.name ‹_›).frontOfBody kind fun d _ _ _ => hall d).bodyOfType hall htype _ kind

theorem typeDeclarationAt (h : s.Run admitted base opened held) (scope : ScopeId) (header : Header) :
    (Reading.typeDeclarationAt typeDeclaration scope header s).Run admitted base opened held := by
  rw [Reading.typeDeclarationAt]
  split
  · exact h
  · split
    · exact h.next.delegate fun d _ _ _ => hall d
    · exact (h.next.move (Cursor.suffix_skipEither _ "class" "struct")).namedType hall htype _ .recordType scope header
    · exact h.next.namedType hall htype _ _ scope header

end Reading.Run

/-- Steps lead through types. The induction is on the tokens ahead: a type inside another one has fewer. -/
theorem TypeDeclaration.keeps : TypeReader.Keeps TypeDeclaration.read where
  read {admitted base opened held s} hall h scope header := by
    induction hsize : s.size using Nat.strongRecOn generalizing admitted base opened held s scope header with
    | ind n ih =>
      rw [TypeDeclaration.read]
      refine h.typeDeclarationAt hall ⟨fun {admitted base opened held t} hall ht inner header => ?_⟩ scope header
      by_cases hlt : t.size < s.size
      · rw [if_pos hlt]
        exact ih t.size (hsize ▸ hlt) hall ht inner header rfl
      · rw [if_neg hlt]
        exact ht.stall

end CSharpStyle
