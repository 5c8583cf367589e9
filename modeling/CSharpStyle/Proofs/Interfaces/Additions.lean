import CSharpStyle.Proofs.Grammar.ClassFile
import CSharpStyle.Proofs.Recording.Member

/-!
# What reading adds to an outline

Reading only adds to an outline. The scopes that are there stay what they are, and further declarations come behind
those that are there. What is said of the declarations that come in may depend on the scopes of the outline, as long as
it stays true when further ones are opened. A member is recorded in the type that it stands in, with an accessibility
that depends on its modifiers and on the kind of that type. A delegate is recorded with what its modifiers say, also in
types whose members are public.

* `Outline.Keeps`: the scopes of an outline stay what they are.
* `Admits P`: the property `P` stays true, and says nothing of declarations that are no members of types.
* `Reading.Adds P o s`: the reading `s` has added declarations that satisfy `P` to the outline `o`.
* `Reading.Adds.run`: steps that record only what `P` admits add only what satisfies `P`.
* `Reading.memberAccessibility`: the accessibility of the member that begins next.
* `Outline.AccountsFor tokens o d`: if `d` is a member of an interface, it was recorded by a member of the file, and
  has the accessibility of this member.
* `Outline.AccountsForMember tokens place s o d`: this, or `d` was recorded by the member that begins at `s`.
-/

namespace CSharpStyle

/-! ### Outlines -/

namespace Outline

/-- The scopes of `o` are scopes of `p` with the same kinds of types. -/
structure Keeps (o p : Outline) : Prop where
  size_le : o.scopes.size ≤ p.scopes.size
  typeKindOf {i : ScopeId} : i < o.scopes.size → p.typeKindOf i = o.typeKindOf i

variable {o p q : Outline}

theorem Keeps.refl : o.Keeps o := ⟨Nat.le_refl _, fun _ => rfl⟩

theorem Keeps.trans (h : o.Keeps p) (h' : p.Keeps q) : o.Keeps q :=
  ⟨Nat.le_trans h.size_le h'.size_le,
    fun hi => (h'.typeKindOf (Nat.lt_of_lt_of_le hi h.size_le)).trans (h.typeKindOf hi)⟩

theorem keeps_addScope (kind : ScopeKind) (name : Option String) (typeKind : Option TypeKind) (parent : ScopeId) :
    o.Keeps (o.addScope kind name typeKind parent).2 where
  size_le := by rw [size_addScope]; exact Nat.le_succ _
  typeKindOf hi := by
    rw [typeKindOf_eq, typeKindOf_eq, heading_addScope, if_neg (Nat.ne_of_lt hi)]

theorem keeps_declare (scope : ScopeId) (d : Declaration) : o.Keeps (o.declare scope d) where
  size_le := Nat.le_of_eq (size_declare o scope d).symm
  typeKindOf _ := by rw [typeKindOf_eq, typeKindOf_eq, heading_declare]

theorem Grows.keeps {admitted : Declaration → Prop} (h : o.Grows admitted p) : o.Keeps p := by
  cases h with
  | same => exact .refl
  | addScope kind name typeKind parent => exact keeps_addScope kind name typeKind parent
  | declare => exact keeps_declare _ _
  | addUsing => exact ⟨Nat.le_refl _, fun _ => rfl⟩
  | newGroup => exact ⟨Nat.le_refl _, fun _ => rfl⟩

/-- The scope that was opened is that of a type of the kind `typeKind`. -/
theorem typeKindOf_addScope (kind : ScopeKind) (name : Option String) (typeKind : Option TypeKind) (parent : ScopeId) :
    (o.addScope kind name typeKind parent).2.typeKindOf (o.addScope kind name typeKind parent).1 = typeKind := by
  rw [typeKindOf_eq, show (o.addScope kind name typeKind parent).1 = o.scopes.size from rfl, heading_addScope,
    if_pos rfl]
  rfl

theorem declarations_declare (scope : ScopeId) (d : Declaration) :
    (o.declare scope d).declarations.toList = o.declarations.toList ++ [{ d with scope }] := by
  simp [declare]

end Outline

/-- The property stays true while an outline grows, and is true of whatever is no member of a type. -/
class Admits (P : Outline → Declaration → Prop) : Prop where
  keeps {o p : Outline} {d : Declaration} : o.Keeps p → P o d → P p d
  other {o : Outline} {d : Declaration} : d.kind.isMember = false → P o d

/-- The property is true of the declaration in whatever grows from `o`. -/
def Outline.Admitted (P : Outline → Declaration → Prop) (o : Outline) (d : Declaration) : Prop :=
  ∀ p : Outline, o.Keeps p → P p d

/-- The outline `p` has further scopes and declarations than `o`, and `P` is true of these declarations. -/
structure Outline.Extends (P : Outline → Declaration → Prop) (o p : Outline) : Prop where
  keeps : o.Keeps p
  declarations : ∃ added, p.declarations.toList = o.declarations.toList ++ added ∧ ∀ d ∈ added, P p d

namespace Outline.Extends

variable {P : Outline → Declaration → Prop} {o p q : Outline}

theorem refl : o.Extends P o := ⟨.refl, [], (List.append_nil _).symm, List.forall_mem_nil _⟩

theorem trans [Admits P] (h : o.Extends P p) (h' : p.Extends P q) : o.Extends P q := by
  obtain ⟨added, hadded, hP⟩ := h.declarations
  obtain ⟨more, hmore, hP'⟩ := h'.declarations
  refine ⟨h.keeps.trans h'.keeps, added ++ more, by rw [hmore, hadded, List.append_assoc], fun d hd => ?_⟩
  rcases List.mem_append.mp hd with hd | hd
  · exact Admits.keeps h'.keeps (hP d hd)
  · exact hP' d hd

theorem of_eq (hkeeps : o.Keeps p) (hdeclarations : p.declarations = o.declarations) : o.Extends P p :=
  ⟨hkeeps, [], by rw [hdeclarations, List.append_nil], List.forall_mem_nil _⟩

theorem declare {scope : ScopeId} {d : Declaration} (hd : P (o.declare scope d) { d with scope }) :
    o.Extends P (o.declare scope d) :=
  ⟨keeps_declare scope d, [{ d with scope }], declarations_declare scope d, by
    rintro e (_ | ⟨_, ⟨⟩⟩)
    exact hd⟩

/-- A declaration that is no member of a type may be recorded anywhere. -/
theorem grows [Admits P] (h : o.Extends P p) (hgrows : p.Grows (o.Admitted P) q) : o.Extends P q := by
  cases hgrows with
  | same => exact h
  | addScope kind name typeKind parent => exact h.trans (.of_eq (keeps_addScope kind name typeKind parent) rfl)
  | @declare scope d member =>
    refine h.trans (.declare ?_)
    cases hmember : d.kind.isMember with
    | true => exact member hmember _ (h.keeps.trans (keeps_declare scope d))
    | false => exact Admits.other hmember
  | addUsing u => exact h.trans (.of_eq ⟨Nat.le_refl _, fun _ => rfl⟩ rfl)
  | newGroup => exact h.trans (.of_eq ⟨Nat.le_refl _, fun _ => rfl⟩ rfl)

end Outline.Extends

/-! ### Readings -/

/-- The reading has added declarations that satisfy `P` to the outline `o`. -/
def Reading.Adds (P : Outline → Declaration → Prop) (o : Outline) (s : Reading) : Prop := o.Extends P s.outline

namespace Reading

variable {P Q : Outline → Declaration → Prop} {o : Outline} {s : Reading} {base : Stage} {opened : List DeclaratorGroup}
  {held : List Token}

/-- The scopes that were opened before a run stay what they are. -/
theorem Run.keeps {admitted : Declaration → Prop} (h : s.Run admitted base opened held) :
    base.reading.outline.Keeps s.outline := by
  have houtlines := h.outlines
  generalize s.outline = p at houtlines ⊢
  induction houtlines with
  | refl => exact .refl
  | tail _ hgrows ih => exact ih.trans hgrows.keeps

namespace Adds

theorem mono (h : s.Adds P o) (hPQ : ∀ {p : Outline} {d : Declaration}, P p d → Q p d) : s.Adds Q o := by
  obtain ⟨hkeeps, added, hadded, hP⟩ := h
  exact ⟨hkeeps, added, hadded, fun d hd => hPQ (hP d hd)⟩

/-- Steps add what they record. -/
theorem run [Admits P] (h : base.reading.Adds P o) (hrun : s.Run (o.Admitted P) base opened held) : s.Adds P o := by
  have houtlines := hrun.outlines
  rw [Adds] at h ⊢
  generalize s.outline = p at houtlines ⊢
  induction houtlines with
  | refl => exact h
  | tail _ hgrows ih => exact ih.grows hgrows

end Adds

/-- What steps record is added to the outline with which they began. -/
theorem Run.adds [Admits P] {s t : Reading} (hrun : t.Run (s.outline.Admitted P) ⟨[], [], s⟩ opened held) :
    t.Adds P s.outline := by
  have hstart : s.Adds P s.outline := .refl
  exact hstart.run hrun

end Reading

/-! ### What is said of members -/

namespace Reading

/-- The accessibility of the type that begins next behind its header, in a type of the kind `owner` or outside all
types. -/
def declaredAccessibility (header : Header) (owner : Option TypeKind) (s : Reading) : Accessibility :=
  if s.seesKeyword "delegate" then header.modifiers.accessibility else typeAccessibility header owner

/-- The accessibility of the member that begins next, in a type of the kind `owner`. -/
def memberAccessibility (owner : TypeKind) (s : Reading) : Accessibility :=
  declaredAccessibility s.header.1 (some owner) s.header.2

/-- A member of an interface is public where nothing else was written, unless it is a delegate. -/
theorem memberAccessibility_interfaceType (s : Reading) :
    s.memberAccessibility .interfaceType =
      if s.header.1.modifiers.accessibility = .unspecified ∧ s.header.2.seesKeyword "delegate" = false then .isPublic
      else s.header.1.modifiers.accessibility := by
  rw [memberAccessibility, declaredAccessibility]
  cases s.header.2.seesKeyword "delegate" with
  | true => simp
  | false => simp [typeAccessibility, Modifiers.accessibilityIn, TypeKind.membersArePublic]

/-- The member that begins at `s` records `d` in its type. -/
structure RecordsMember (place : Place) (s : Reading) (d : Declaration) : Prop where
  scope : d.scope = place.scope
  added : ∃ added, (member TypeDeclaration.read place s).settle.outline.declarations.toList =
    s.outline.declarations.toList ++ added ∧ d ∈ added

end Reading

open Reading

/-- A member of an interface of the file records the declaration, with the accessibility of that member. -/
def IsInterfaceMember (tokens : List Token) (d : Declaration) : Prop :=
  ∃ (place : Place) (s : Reading), s.cursor.Over tokens ∧ s.stalled = false ∧ place.owner = .interfaceType ∧
    RecordsMember place s d ∧ d.accessibility = s.memberAccessibility .interfaceType ∧
      (s.header.2.seesKeyword "delegate" → d.kind = .type)

namespace Outline

/-- Members of interfaces were recorded by members of the file. -/
def AccountsFor (tokens : List Token) (o : Outline) (d : Declaration) : Prop :=
  d.kind.isMember → d.scope < o.scopes.size ∧ (o.typeKindOf d.scope = some .interfaceType → IsInterfaceMember tokens d)

/-- The declaration is accounted for, or is recorded by the member that begins at `s`. -/
def AccountsForMember (tokens : List Token) (place : Place) (s : Reading) (o : Outline) (d : Declaration) : Prop :=
  o.AccountsFor tokens d ∨ d.scope = place.scope ∧ d.accessibility = s.memberAccessibility place.owner ∧
    (s.header.2.seesKeyword "delegate" → d.kind = .type)

end Outline

instance (tokens : List Token) : Admits (Outline.AccountsFor tokens) where
  keeps hkeeps hd hkind := by
    obtain ⟨hscope, hmember⟩ := hd hkind
    exact ⟨Nat.lt_of_lt_of_le hscope hkeeps.size_le, fun howner => hmember (hkeeps.typeKindOf hscope ▸ howner)⟩
  other hkind hmember := absurd hmember (Bool.eq_false_iff.mp hkind)

instance (tokens : List Token) (place : Place) (s : Reading) :
    Admits (Outline.AccountsForMember tokens place s) where
  keeps hkeeps hd := hd.imp_left fun hd => Admits.keeps hkeeps hd
  other hkind := .inl (Admits.other hkind)

/-- The type itself is recorded, and its scope is opened. -/
theorem Reading.typeKindOf_frontOfBody (kind : TypeKind) (scope : ScopeId) (header : Header) (name : Token)
    (s : Reading) :
    (Reading.frontOfBody kind scope header name s).2.outline.typeKindOf
      (Reading.frontOfBody kind scope header name s).1 = some kind := by
  let declared := s.declareName scope name (typeRole kind) .type (typeAccessibility header (s.outline.typeKindOf scope))
  let inner := declared.openType kind name.identifierName scope
  have hsize : inner.1 < inner.2.outline.scopes.size :=
    Nat.lt_of_lt_of_le (Nat.lt_succ_self _) (Nat.le_of_eq (Outline.size_addScope ..).symm)
  have hkind : inner.2.outline.typeKindOf inner.1 = some kind := Outline.typeKindOf_addScope ..
  have hinner : inner.2.Run (fun _ => True) ⟨[], [], inner.2⟩ [] [] := .refl inner.2
  have hbody := ((hinner.typeParameters inner.1).primaryParameters inner.1 kind name).skipUntil isBodyMark
  exact (hbody.keeps.typeKindOf hsize).trans hkind

end CSharpStyle
