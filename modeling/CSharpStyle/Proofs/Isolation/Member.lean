import CSharpStyle.Proofs.Isolation.Signature

/-!
# Malformed members

Each form of member, well formed or not, is left inside the text in front of its `;` or right behind it, unless
reading is lost in a list of type parameters or in the search for the parameters of an operator.

* `Inside.member`: the passage through one member.
-/

namespace CSharpStyle

namespace Reading

open Token

variable {rest : List Token} {s t : Reading} {i : ScopeId} {place : Place}

namespace Inside

theorem declareMember (h : Inside rest s t) (header : Header) (a : Token) (kind : DeclarationKind)
    (group : Option GroupPlace) :
    Inside rest (s.declareMember place header a kind group) (t.declareMember place header a kind group) :=
  h.declare _ _

theorem accessors (h : Inside rest s t) :
    Passage rest (Reading.accessors i s).settle (Reading.accessors i t).settle := by
  rw [Reading.accessors, Reading.accessors]
  rcases h.eat_cases "=>" (by decide) with ⟨hs, ht⟩ | ⟨s', t', hs, ht, harrow⟩
  · rcases h.eat_cases "\x7b" (by decide) with ⟨hs', ht'⟩ | ⟨s', t', hs', ht', -⟩
    · simp only [hs, ht, hs', ht']; exact h.report_recover (by decide)
    · rw [Reading.eat?, Cursor.eat?, show s.cursor.sees "\x7b" = false from h.sees_brace.1] at hs'
      cases hs'
  · simp only [hs, ht]; exact harrow.skipToStatementEnd

theorem fieldRound (h : Inside rest s t) (header : Header) (kind : DeclarationKind) (group index : Nat) (a : Token) :
    Round.Rel (fun p q => p.1 = q.1 ∧ Inside rest p.2 q.2) (fun a b => Passage rest a.settle b.settle)
      (Reading.fieldRound place header kind group ((a, index), s))
      (Reading.fieldRound place header kind group ((a, index), t)) := by
  have hdeclared : Inside rest (s.declareMember place header a kind (some { group, index }))
      (t.declareMember place header a kind (some { group, index })) := h.declareMember header a kind _
  have hvalue := (hdeclared.skipGroupAt "[" (.inr rfl)).skipValue (f := Statement.read) (g := Statement.read)
    (i := place.scope)
  simp only [Reading.fieldRound]
  rcases hvalue.eat_cases "," (by decide) with ⟨hs, ht⟩ | ⟨s', t', hs, ht, hcomma⟩
  · simp only [hs, ht]
    rcases hvalue.eat_semicolon with ⟨hs, ht⟩ | ⟨s', t', hs, ht, hend⟩
    · rw [hs, ht]; exact .done (hvalue.report_recover (by decide))
    · rw [hs, ht]; exact .done (.behind hend)
  · simp only [hs, ht]
    rcases hcomma.name_cases with ⟨hs, ht⟩ | ⟨b, s'', t'', hs, ht, hname⟩
    · rw [hs, ht]; exact .done (hcomma.report_recover (by decide))
    · rw [hs, ht]; exact .again ⟨rfl, hname⟩

private theorem size_of_fieldRound {header : Header} {kind : DeclarationKind} {group : Nat}
    {p q : (Token × Nat) × Reading} (hp : p.2.stalled = false)
    (h : Reading.fieldRound place header kind group p = .again q) : q.2.size < p.2.size := by
  obtain ⟨⟨a, index⟩, s⟩ := p
  have hround := Correspondence.fieldRound ((moving_of_not_stalled hp).related fun _ => id) (i := place.scope)
    rfl header kind (o := place.owner) (show group = group from rfl) (a := a) rfl index
  rw [show (⟨place.scope, place.owner⟩ : Place) = place from rfl, h] at hround
  cases hround with
  | again hagain => exact hagain.2.size_lt

theorem fields (h : Inside rest s t) (header : Header) (a : Token) (kind : DeclarationKind) :
    Passage rest (Reading.fields place header a kind s).settle (Reading.fields place header a kind t).settle := by
  obtain ⟨group, s', t', hs, ht, hnew⟩ := h.newGroup
  simp only [Reading.fields, hs, ht]
  refine rounds_rel (R := fun p q : (Token × Nat) × Reading => p.1 = q.1 ∧ Inside rest p.2 q.2)
    (Q := fun a b : Attempt => Passage rest a.settle b.settle) ?_ ⟨rfl, hnew⟩
  rintro ⟨⟨a, index⟩, s⟩ ⟨-, t⟩ ⟨rfl, h⟩
  exact (h.fieldRound header kind group index a).and (size_of_fieldRound h.moving.1) (size_of_fieldRound h.moving.2)

theorem memberWithAccessors (h : Inside rest s t) (header : Header) (a : Token) (isExplicit : Bool)
    (kind : DeclarationKind) :
    Passage rest (Reading.memberWithAccessors place header a isExplicit kind s).settle
      (Reading.memberWithAccessors place header a isExplicit kind t).settle := by
  have hdeclare : Inside rest (if isExplicit then s else s.declareMember place header a kind none)
      (if isExplicit then t else t.declareMember place header a kind none) := by
    split
    · exact h
    · exact h.declareMember header a kind none
  obtain ⟨method, s', t', hs, ht, hopen⟩ := hdeclare.openScope .method (some a.identifierName) place.scope
  simp only [Reading.memberWithAccessors, hs, ht]
  exact hopen.accessors

theorem memberName (h : Inside rest s t) (a : Token) :
    (s.memberName a).1 = (t.memberName a).1 ∧ Inside rest (s.memberName a).2 (t.memberName a).2 := by
  obtain ⟨hname, hexplicit, hmove⟩ := (lockstep rest).qualifiedMember h.cursor (show a = a from rfl) false
  exact ⟨Prod.ext hname hexplicit, h.move hmove⟩

theorem event (h : Inside rest s t) (header : Header) :
    Passage rest (Reading.event place header s).settle (Reading.event place header t).settle := by
  simp only [Reading.event]
  rcases h.type_cases with ⟨hs, ht⟩ | ⟨isVar, s', t', hs, ht, htype⟩
  · rw [hs, ht]; exact h.report_recover (by decide)
  · simp only [hs, ht]
    rcases htype.name_cases with ⟨hs, ht⟩ | ⟨a, s'', t'', hs, ht, hname⟩
    · rw [hs, ht]; exact htype.report_recover (by decide)
    · obtain ⟨hmember, hbehind⟩ := hname.memberName a
      simp only [hs, ht, ← hmember, hbehind.sees_brace.1, ← hbehind.sees, Bool.false_eq_true, ↓reduceIte]
      exact hbehind.fields header _ .event

theorem namedMember (h : Inside rest s t) (header : Header) (a : Token) :
    Passage rest (Reading.namedMember place header a s).settle (Reading.namedMember place header a t).settle := by
  obtain ⟨hmember, hbehind⟩ := h.memberName a
  simp only [Reading.namedMember, ← hmember, ← hbehind.sees]
  split
  · refine methodRest ?_ _
    split
    · exact hbehind
    · exact hbehind.declareMember header _ .method none
  · split
    · exact hbehind.memberWithAccessors header _ _ .property
    · split
      · exact hbehind.fields header _ .field
      · exact hbehind.report_recover (by decide)

theorem seesSecond (h : Inside rest s t) (hsemi : s.sees ";" = false) (mark : String) :
    s.cursor.seesSecond mark = t.cursor.seesSecond mark :=
  (lockstep rest).seesSecond h.cursor hsemi mark

/-- What comes behind the word `this` is in front of the `;` or is the `;`. -/
theorem this_and_second (h : Inside rest s t) :
    (s.seesKeyword "this" && s.cursor.seesSecond "[") = (t.seesKeyword "this" && t.cursor.seesSecond "[") := by
  rw [← h.seesKeyword]
  cases hthis : s.seesKeyword "this" with
  | false => rfl
  | true =>
    obtain ⟨a, ha, hword⟩ := (Option.any_eq_true _ _).mp hthis
    rw [h.seesSecond ((Cursor.sees_of_peek? ha _).trans (not_isPunctuation_of_isKeyword hword _))]

theorem typedMember (h : Inside rest s t) (header : Header) :
    Passage rest (Reading.typedMember place header s).settle (Reading.typedMember place header t).settle := by
  have hmove : Inside rest ((s.eatKeyword? "ref").elim s (·.move (·.skipKeyword "readonly")))
      ((t.eatKeyword? "ref").elim t (·.move (·.skipKeyword "readonly"))) := by
    rcases h.eatKeyword_cases "ref" with ⟨hs, ht⟩ | ⟨s', t', hs, ht, hword⟩
    · rw [hs, ht]; exact h
    · rw [hs, ht]; exact hword.move ((lockstep rest).skipKeyword hword.cursor "readonly")
  simp only [Reading.typedMember, ← h.peek_eq]
  rcases hmove.type_cases with ⟨hs, ht⟩ | ⟨isVar, s', t', hs, ht, htype⟩
  · rw [hs, ht]; exact hmove.report_recover (by rintro ⟨⟩)
  · simp only [hs, ht, ← htype.this_and_second]
    split
    · rename_i hthis
      obtain ⟨hword, hsecond⟩ := Bool.and_eq_true_iff.mp hthis
      obtain ⟨a, ha, hword⟩ := (Option.any_eq_true _ _).mp hword
      have hnext := htype.next ha (not_isPunctuation_of_isKeyword hword _)
      obtain ⟨indexer, s'', t'', hs, ht, hopen⟩ := hnext.openScope .method (some "this") place.scope
      simp only [hs, ht]
      refine (hopen.parameterList (.inr ?_) .parameter .parameter).accessors
      cases hs
      exact hsecond
    · rcases htype.eatKeyword_cases "operator" with ⟨hs, ht⟩ | ⟨s'', t'', hs, ht, hoperator⟩
      · rcases htype.name_cases with ⟨hs', ht'⟩ | ⟨a, s'', t'', hs', ht', hname⟩
        · simp only [hs, ht, hs', ht']; exact htype.report_recover (by decide)
        · simp only [hs, ht, hs', ht']; exact hname.namedMember header a
      · simp only [hs, ht]
        rcases hoperator.skipWhile with hfound | hlost
        · exact hfound.methodRest "operator"
        · exact .lost (hlost.methodRest "operator")

theorem conversionOperator (h : Inside rest s t) :
    Passage rest (Reading.conversionOperator i s).settle (Reading.conversionOperator i t).settle := by
  simp only [Reading.conversionOperator]
  rcases h.eatKeyword_cases "operator" with ⟨hs, ht⟩ | ⟨s', t', hs, ht, hword⟩
  · rw [hs, ht]; exact h.report_recover (by decide)
  · simp only [hs, ht]
    rcases hword.type_cases with ⟨hs, ht⟩ | ⟨isVar, s', t', hs, ht, htype⟩
    · rw [hs, ht]; exact hword.report_recover (by decide)
    · rw [hs, ht]; exact htype.methodRest _

theorem finalizer (h : Inside rest s t) :
    Passage rest (Reading.finalizer i s).settle (Reading.finalizer i t).settle := by
  simp only [Reading.finalizer]
  rcases h.name_cases with ⟨hs, ht⟩ | ⟨a, s', t', hs, ht, hname⟩
  · rw [hs, ht]; exact h.report_recover (by decide)
  · rw [hs, ht]; exact hname.methodRest _

/-! ### Types inside the class -/

theorem optionalParameters (h : Inside rest s t) :
    Inside rest (if s.sees "(" then Reading.parameterList Statement.read i .parameter .parameter s else s)
      (if t.sees "(" then Reading.parameterList Statement.read i .parameter .parameter t else t) := by
  rw [← h.sees]
  split
  · exact h.parameterList (.inl ‹_›) .parameter .parameter
  · exact h

theorem delegate (h : Inside rest s t) (header : Header) :
    Passage rest (Reading.delegate i header s) (Reading.delegate i header t) := by
  simp only [Reading.delegate]
  rcases h.type_cases with ⟨hs, ht⟩ | ⟨isVar, s', t', hs, ht, htype⟩
  · rw [hs, ht]; exact h.report_recover (by decide)
  · simp only [hs, ht]
    rcases htype.name_cases with ⟨hs, ht⟩ | ⟨a, s'', t'', hs, ht, hname⟩
    · rw [hs, ht]; exact htype.report_recover (by decide)
    · have hdeclare := hname.declareName i a .typeName .type header.modifiers.accessibility
      obtain ⟨method, u, v, hu, hv, hopen⟩ := hdeclare.openScope .method (some a.identifierName) i
      simp only [hs, ht, hu, hv]
      rcases hopen.typeParameters (i := method) with htypes | hlost
      · have hconstraints := (htypes.optionalParameters (i := method)).skipConstraints
        rcases hconstraints.eat_semicolon with ⟨hs, ht⟩ | ⟨s', t', hs, ht, hend⟩
        · rw [hs, ht]; exact hconstraints.report_recover (by decide)
        · rw [hs, ht]; exact .behind hend
      · refine .lost (hlost.report (.expected "';' after delegate declaration") (fun hu => ?_) fun hu => ?_)
        all_goals
          simp only [hu.sees, Bool.false_eq_true, ↓reduceIte, hu.skipConstraints, hu.eat?]
          exact (hu.report _).recover

theorem primaryParameters (h : Inside rest s t) (kind : TypeKind) (a : Token) :
    Inside rest (Reading.primaryParameters i kind a s) (Reading.primaryParameters i kind a t) := by
  rw [Reading.primaryParameters, Reading.primaryParameters, ← h.sees]
  split
  · rename_i hparen
    split
    · exact h.parameterList (.inl hparen) .publicMember .recordProperty
    · obtain ⟨method, s', t', hs, ht, hopen⟩ := h.openScope .method (some a.identifierName) i
      simp only [hs, ht]
      refine hopen.parameterList (.inl ?_) .parameter .parameter
      cases hs
      exact hparen
  · exact h

theorem bodyOfType (h : Inside rest s t) {F : TypeReader} (kind : TypeKind) :
    Passage rest (Reading.bodyOfType F i kind s) (Reading.bodyOfType F i kind t) := by
  rw [Reading.bodyOfType, Reading.bodyOfType]
  rcases h.eat_cases "\x7b" (by decide) with ⟨hs, ht⟩ | ⟨s', t', hs, ht, -⟩
  · rw [hs, ht]; exact h.require_semicolon (by decide)
  · rw [Reading.eat?, Cursor.eat?, show s.cursor.sees "\x7b" = false from h.sees_brace.1] at hs
    cases hs

theorem namedType (h : Inside rest s t) {F : TypeReader} (word : String) (kind : TypeKind) (header : Header) :
    Passage rest (Reading.namedType F word kind i header s) (Reading.namedType F word kind i header t) := by
  simp only [Reading.namedType]
  rcases h.name_cases with ⟨hs, ht⟩ | ⟨a, s', t', hs, ht, hname⟩
  · rw [hs, ht]
    exact h.report_recover (by rintro ⟨⟩)
  · have hdeclare := hname.declareName i a (typeRole kind) .type (typeAccessibility header (t'.outline.typeKindOf i))
    obtain ⟨inner, u, v, hu, hv, hopen⟩ := hdeclare.openType kind a.identifierName i
    simp only [hs, ht, hname.outline, hu, hv]
    rcases hopen.typeParameters (i := inner) with htypes | hlost
    · refine ((htypes.primaryParameters kind a).skipUntil (fun hab => ?_) fun {b} hb => ?_).bodyOfType kind
      · rw [isBodyMark, isBodyMark, hab.kind, hab.text]
      · obtain ⟨hkind, htext⟩ := eq_of_isWall hb
        rcases htext with htext | htext | htext <;> simp [isBodyMark, hkind, htext]
    · refine .lost (hlost.report (.expected "type body") (fun hu => ?_) fun hu => ?_)
      all_goals
        simp only [Reading.primaryParameters, hu.sees, Bool.false_eq_true, ↓reduceIte, hu.skipUntil,
          Reading.bodyOfType, hu.eat?, hu.require]

theorem typeDeclarationAt (h : Inside rest s t) {F : TypeReader} (header : Header) {a : Token}
    (ha : s.peek? = some a) (hsemi : a.isPunctuation ";" = false) :
    Passage rest (Reading.typeDeclarationAt F i header s) (Reading.typeDeclarationAt F i header t) := by
  have hnext := h.next ha hsemi
  simp only [Reading.typeDeclarationAt, ← h.peek_eq, ha]
  split
  · exact hnext.delegate header
  · exact (hnext.move ((lockstep rest).skipEither hnext.cursor "class" "struct")).namedType a.text .recordType header
  · exact hnext.namedType a.text _ header

theorem member (h : Inside rest s t) :
    Passage rest (Reading.member TypeDeclaration.read place s).settle
      (Reading.member TypeDeclaration.read place t).settle := by
  obtain ⟨hheader, hbehind⟩ := h.header
  simp only [Reading.member, ← hheader, ← hbehind.peek_eq]
  have htype : s.header.2.cursor.seesTypeDeclaration = t.header.2.cursor.seesTypeDeclaration :=
    (lockstep rest).seesTypeDeclaration hbehind.cursor
  cases ha : s.header.2.peek? with
  | none => exact .inside hbehind
  | some a =>
    have hnext (hsemi : a.isPunctuation ";" = false) : Inside rest s.header.2.next t.header.2.next :=
      hbehind.next ha hsemi
    have hsecond : (a.isName && s.header.2.cursor.seesSecond "(") = (a.isName && t.header.2.cursor.seesSecond "(") := by
      cases hname : a.isName with
      | false => rfl
      | true =>
        rw [hbehind.seesSecond ((Cursor.sees_of_peek? ha _).trans (not_isPunctuation_of_isName hname _))]
    simp only [← htype, ← hsecond]
    split
    · exact .inside hbehind
    · split
      · rename_i hsees
        have hsemi : a.isPunctuation ";" = false := by
          rw [Cursor.seesTypeDeclaration, show s.header.2.cursor.peek? = some a from ha] at hsees
          refine not_isPunctuation_of_kind (fun hkind => ?_) _
          simp [hkind] at hsees
        show Passage rest (TypeDeclaration.read _ _ _) (TypeDeclaration.read _ _ _)
        rw [TypeDeclaration.read_eq hbehind.moving.1, TypeDeclaration.read_eq hbehind.moving.2]
        exact hbehind.typeDeclarationAt _ ha hsemi
      · split
        · rename_i hword
          exact (hnext (not_isPunctuation_of_isKeyword hword _)).event _
        · split
          · rename_i hword
            refine (hnext ?_).conversionOperator
            rcases Bool.or_eq_true_iff.mp hword with hword | hword
            all_goals exact not_isPunctuation_of_isKeyword hword _
          · split
            · rename_i hmark
              exact (hnext (isPunctuation_of_ne hmark (by decide))).finalizer
            · split
              · rename_i hname
                refine (hnext ?_).methodRest _
                exact not_isPunctuation_of_isName (Bool.and_eq_true_iff.mp hname).1 _
              · exact hbehind.typedMember _

end Inside

end Reading

end CSharpStyle
