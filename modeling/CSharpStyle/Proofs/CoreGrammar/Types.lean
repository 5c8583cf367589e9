import CSharpStyle.Proofs.CoreGrammar.Members

/-!
# Types of core programs

A type is recorded in front of the scope of its body, whose kind tells the members in it whether they are public.

* `TypeFrame.opens`: what is recorded up to the brace of a type, behind which its body is read.
* `TypeFrame.read`: a type is read to its end if its members are.
* `Members.reads`: the members of a type are read, and recorded as their tree says, whatever comes behind them.
-/

namespace CSharpStyle

open Token CoreGrammar Reading

namespace CoreGrammar

/-- Members of a type are recorded in the scope of its body, and the body goes on behind them. -/
def Members.Reads (members : Members) : Prop :=
  ∀ {s : Reading} {ahead : List Token} {o : Outline} {name : Option String} (opening : Position) (place : Place),
    o.heading? place.scope = some (name, some place.owner) → Follows ahead → s.Clean (members.tokens ++ ahead) o →
      ∃ v : Reading, v.Clean ahead ((members.contents place.owner).record place.scope o) ∧
        v.cursor.tokens = s.cursor.tokens ∧
        typeBody TypeDeclaration.read opening place s = typeBody TypeDeclaration.read opening place v

variable {s : Reading} {rest : List Token} {o : Outline}

/-- The tokens up to the brace behind which the members are. -/
def TypeFrame.opening (frame : TypeFrame) : List Token :=
  frame.modifiers.tokens ++ [frame.word.token, frame.name.token, frame.braces.opening.token]

theorem TypeFrame.tokens_eq (frame : TypeFrame) (members : List Token) :
    frame.tokens members = frame.opening ++ (members ++ [frame.braces.closing.token]) := by
  simp [tokens, opening, Brackets.around]

/-- Behind the modifiers comes a type. -/
theorem TypeFrame.header (frame : TypeFrame) (h : s.Clean (frame.opening ++ rest) o) :
    ∃ v : Reading, s.header = (⟨frame.modifiers.modifiers, false⟩, v) ∧ v.cursor.seesTypeDeclaration ∧
      v.Clean (frame.word.token :: frame.name.token :: frame.braces.opening.token :: rest) o ∧
      v.cursor.tokens = s.cursor.tokens := by
  obtain ⟨keyword, word, modifiers, name, braces⟩ := frame
  simp only [opening, List.append_assoc, List.cons_append, List.nil_append] at h
  have hend : isModifier word.token name.token = false := by cases keyword <;> rfl
  obtain ⟨v, hheader, hv⟩ := h.header (by rintro ⟨⟩) (by rintro ⟨⟩) hend
  have hsound := sound_of_related (((moving_of_not_stalled h.moving).related fun _ => id).header).2.related
  rw [hheader] at hsound
  refine ⟨v, hheader, ?_, hv, hsound.inside⟩
  rw [Cursor.seesTypeDeclaration, show v.cursor.peek? = some word.token from hv.toAt.peek]
  cases keyword <;> rfl

/-- The scope of the body, and the outline in front of the members. -/
def TypeFrame.record (frame : TypeFrame) (accessibility : Accessibility) (scope : ScopeId) (o : Outline) :
    ScopeId × Outline :=
  (o.declare scope
    { name := frame.name.declared, role := frame.keyword.role, kind := .type, position := frame.name.span.start
      accessibility }).addScope .typeBody (some frame.name.declared) (some frame.keyword.kind) scope

theorem TypeFrame.record_contents (frame : TypeFrame) (accessibility : Accessibility) (members more : Contents)
    (scope : ScopeId) (o : Outline) :
    (frame.contents accessibility members more).record scope o =
      let inner := frame.record accessibility scope o
      more.record scope (members.record inner.1 inner.2) := rfl

theorem TypeFrame.heading_record (frame : TypeFrame) (accessibility : Accessibility) (scope : ScopeId) (o : Outline) :
    (frame.record accessibility scope o).2.heading? (frame.record accessibility scope o).1 =
      some (some frame.name.declared, some frame.keyword.kind) :=
  (Outline.heading_addScope ..).trans (if_pos rfl)

/-- Behind the name of a type its body is read, if its brace comes next. -/
theorem bodyOfType_eq {opening : Mark "\x7b"} (h : s.Clean (opening.token :: rest) o) {kind : TypeKind}
    (hkind : kind ≠ .enumType) (scope : ScopeId) (token : Token) :
    bodyOfType TypeDeclaration.read scope kind
        ((primaryParameters scope kind token (s.typeParameters scope)).move (.skipUntil isBodyMark)) =
      (typeBody TypeDeclaration.read opening.span.start ⟨scope, kind⟩ s.next).skip ";" := by
  have hparameters : s.typeParameters scope = s := by
    rw [typeParameters, h.toAt.eat_none "<" rfl]
  have hprimary : primaryParameters scope kind token s = s := by
    rw [primaryParameters, h.toAt.sees, if_neg]
    exact Bool.false_ne_true
  have hskip : s.move (.skipUntil isBodyMark) = s := by
    have hstop : (Cursor.strideUntil isBodyMark).step? s.cursor = none := by
      simp only [Cursor.strideUntil, show s.cursor.peek? = some opening.token from h.toAt.peek]
      rfl
    rw [move, Cursor.skipUntil, Cursor.skipMany_of_none hstop]
  rw [hparameters, hprimary, hskip, bodyOfType, h.toAt.eat "\x7b" rfl]
  simp only [if_neg hkind, h.position]
  rfl

/-- A type is recorded with the accessibility that its place gives it, and its body is read behind its brace. -/
theorem TypeFrame.opens (frame : TypeFrame)
    (h : s.Clean (frame.word.token :: frame.name.token :: frame.braces.opening.token :: rest) o) {scope : ScopeId}
    {heading : Option String × Option TypeKind} (hscope : o.heading? scope = some heading) (header : Header) :
    ∃ v : Reading, v.Clean rest (frame.record (typeAccessibility header heading.2) scope o).2 ∧
      v.cursor.tokens = s.cursor.tokens ∧
      TypeDeclaration.read scope header s =
        (typeBody TypeDeclaration.read frame.braces.opening.span.start
          ⟨(frame.record (typeAccessibility header heading.2) scope o).1, frame.keyword.kind⟩ v).skip ";" := by
  obtain ⟨keyword, word, modifiers, name, braces⟩ := frame
  have hname := h.next
  have hbrace := hname.next
  have hkeyword : typeDeclarationAt TypeDeclaration.read scope header s =
      namedType TypeDeclaration.read keyword.word keyword.kind scope header s.next := by
    rw [typeDeclarationAt, h.toAt.peek]
    cases keyword <;> rfl
  -- The reader looks up what kind of type it is in. The scope around has kept its heading since it was opened.
  have howner : s.next.next.outline.typeKindOf scope = heading.2 := by
    rw [hbrace.outline, Outline.typeKindOf_eq, hscope]
    rfl
  have hrole : typeRole keyword.kind = keyword.role := by cases keyword <;> rfl
  have hkind : keyword.kind ≠ .enumType := by cases keyword <;> rintro ⟨⟩
  have hd := hbrace.declare scope
    { name := name.declared, role := keyword.role, kind := .type, position := name.span.start
      accessibility := typeAccessibility header heading.2 }
  obtain ⟨hinner, hw⟩ := hd.openType keyword.kind name.token.identifierName scope
  refine ⟨_, hw.next, hw.tokens_next.trans (hname.tokens_next.trans h.tokens_next), ?_⟩
  rw [TypeDeclaration.read_eq h.moving, hkeyword, namedType, hname.toAt.name (t := name.token) rfl]
  simp only [howner, hrole]
  exact hinner ▸ bodyOfType_eq hw hkind _ name.token

/-- The members of a type are read up to its brace, and recorded in the scope of its body. -/
theorem Members.Reads.closed {members : Members} (hmembers : members.Reads) {closing : Mark "\x7d"}
    (h : s.Clean (members.tokens ++ closing.token :: rest) o) (opening : Position) (place : Place)
    {name : Option String} (hplace : o.heading? place.scope = some (name, some place.owner)) :
    (typeBody TypeDeclaration.read opening place s).Clean rest
      ((members.contents place.owner).record place.scope o) := by
  have hfollows : Follows (closing.token :: rest) := by
    intro t ht
    cases ht
    exact ⟨rfl, rfl⟩
  obtain ⟨v, hv, -, hread⟩ := hmembers opening place hplace hfollows h
  have hend : typeBodyRound TypeDeclaration.read opening place v = .done v.next := by
    rw [typeBodyRound, hv.toAt.peek]
    rfl
  rw [hread, typeBody, rounds_of_done hend]
  exact hv.next

/-- A type is read to its end, and recorded with its members. -/
theorem TypeFrame.read (frame : TypeFrame) {members : Members} (hmembers : members.Reads)
    (h : s.Clean (frame.word.token :: frame.name.token :: frame.braces.opening.token ::
      (members.tokens ++ frame.braces.closing.token :: rest)) o)
    (hrest : Follows rest) {scope : ScopeId} {heading : Option String × Option TypeKind}
    (hscope : o.heading? scope = some heading) (header : Header) :
    (TypeDeclaration.read scope header s).Clean rest
      ((frame.contents (typeAccessibility header heading.2) (members.contents frame.keyword.kind) .done).record scope
        o) := by
  obtain ⟨v, hv, -, hread⟩ := frame.opens h hscope header
  have hbody := hmembers.closed hv frame.braces.opening.span.start ⟨_, frame.keyword.kind⟩ (frame.heading_record ..)
  rw [hread, skip, hbody.eat_none fun t ht => (hrest t ht).2]
  exact hbody

/-- A type inside another one is a member of this type. -/
theorem TypeFrame.member_eq (frame : TypeFrame) (h : s.Clean (frame.opening ++ rest) o) (place : Place) :
    ∃ v : Reading, v.Clean (frame.word.token :: frame.name.token :: frame.braces.opening.token :: rest) o ∧
      v.cursor.tokens = s.cursor.tokens ∧
      (Reading.member TypeDeclaration.read place s).settle =
        TypeDeclaration.read place.scope ⟨frame.modifiers.modifiers, false⟩ v := by
  obtain ⟨v, hheader, hsees, hv, htokens⟩ := frame.header h
  have hmember : Reading.member TypeDeclaration.read place s =
      .complete (TypeDeclaration.read place.scope ⟨frame.modifiers.modifiers, false⟩ v) := by
    have hbrace : frame.word.token.isPunctuation "\x7d" = false := rfl
    rw [Reading.member, hheader]
    simp only [hv.toAt.peek, hbrace, hsees, Bool.false_eq_true, ↓reduceIte]
  exact ⟨v, hv, htokens, by rw [hmember]; rfl⟩

theorem TypeFrame.member (frame : TypeFrame) {members : Members} (hmembers : members.Reads)
    (h : s.Clean (frame.tokens members.tokens ++ rest) o) (hrest : Follows rest) {place : Place} {name : Option String}
    (hplace : o.heading? place.scope = some (name, some place.owner)) :
    (Reading.member TypeDeclaration.read place s).settle.Clean rest
      ((frame.contents (frame.modifiers.modifiers.accessibilityIn place.owner) (members.contents frame.keyword.kind)
        .done).record place.scope o) := by
  simp only [frame.tokens_eq, List.append_assoc] at h
  obtain ⟨v, hv, -, hread⟩ := frame.member_eq h place
  rw [hread]
  exact frame.read hmembers hv hrest hplace ⟨frame.modifiers.modifiers, false⟩

/-! ### Bodies of types -/

namespace Members

/-- No member continues a property or a type. -/
theorem follows (members : Members) {ahead : List Token} (h : Follows ahead) : Follows (members.tokens ++ ahead) := by
  cases members with
  | done => exact h
  | field head semicolon more =>
    rw [tokens, List.append_assoc]
    exact follows_of_beginsWithWord (head.beginsWithWord _)
  | property head braces getter setter more =>
    rw [tokens, List.append_assoc]
    exact follows_of_beginsWithWord (head.beginsWithWord _)
  | method head parentheses parameters braces body more =>
    rw [tokens, List.append_assoc]
    exact follows_of_beginsWithWord (head.beginsWithWord _)
  | type frame inner more =>
    rw [tokens, List.append_assoc]
    exact follows_of_beginsWithWord (frame.beginsWithWord _ _)

/-- A round reads a member, and the rounds behind it the members that follow. -/
theorem Reads.step {more : Members} (ih : more.Reads) {ahead behind : List Token} (h : s.Clean ahead o)
    (hhead : BeginsWithWord ahead) (hbehind : Follows behind) {opening : Position} {place : Place}
    {name : Option String} (hplace : o.heading? place.scope = some (name, some place.owner)) {item : Contents}
    (hread : (Reading.member TypeDeclaration.read place s).settle.Clean (more.tokens ++ behind)
      (item.record place.scope o))
    (hless : (more.tokens ++ behind).length < ahead.length) :
    ∃ v : Reading, v.Clean behind ((more.contents place.owner).record place.scope (item.record place.scope o)) ∧
      v.cursor.tokens = s.cursor.tokens ∧
      typeBody TypeDeclaration.read opening place s = typeBody TypeDeclaration.read opening place v := by
  obtain ⟨t, rest, rfl, ht⟩ := hhead
  have hround := typeBodyRound_of_size_lt h.toAt.peek (not_isPunctuation_of_kind ht _) (not_isPunctuation_of_kind ht _)
    (by rwa [hread.size, h.size]) opening
  obtain ⟨hagain, hsound, -⟩ := typeBody_of_again h.moving hround
  obtain ⟨v, hv, htokens, hbody⟩ := ih opening place (item.heading_record hplace) hbehind hread
  exact ⟨v, hv, htokens.trans hsound.inside, hagain.trans hbody⟩

theorem reads (members : Members) : members.Reads := by
  induction members with
  | done =>
    intro s ahead o name opening place hplace hahead h
    exact ⟨s, h, rfl, rfl⟩
  | field head semicolon more ih =>
    intro s ahead o name opening place hplace hahead h
    simp only [tokens, List.append_assoc, List.cons_append] at h
    have hread := h.field TypeDeclaration.read head semicolon place
    refine ih.step h (head.beginsWithWord _) hahead hplace hread ?_
    simp [MemberHead.tokens]
    omega
  | property head braces getter setter more ih =>
    intro s ahead o name opening place hplace hahead h
    simp only [tokens, List.append_assoc] at h
    have hread := h.property TypeDeclaration.read head braces getter setter (more.follows hahead) place
    refine ih.step h (head.beginsWithWord _) hahead hplace hread ?_
    simp [MemberHead.tokens]
    omega
  | method head parentheses parameters braces body more ih =>
    intro s ahead o name opening place hplace hahead h
    simp only [tokens, List.append_assoc] at h
    have hread := h.method TypeDeclaration.read head parentheses parameters braces body place
    refine ih.step h (head.beginsWithWord _) hahead hplace hread ?_
    simp [MemberHead.tokens]
    omega
  | type frame inner more ihInner ihMore =>
    intro s ahead o name opening place hplace hahead h
    rw [tokens, List.append_assoc] at h
    have hread := frame.member ihInner h (more.follows hahead) hplace
    -- Only here two hypotheses are used: one for the members inside, and one for those behind.
    rw [contents, frame.record_contents]
    refine ihMore.step h (frame.beginsWithWord _ _) hahead hplace hread ?_
    simp [TypeFrame.tokens]
    omega

end Members

end CoreGrammar

end CSharpStyle
