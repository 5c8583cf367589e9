import CSharpStyle.Proofs.Braces.Statement

/-!
# Braces in types and their members

A type is read up to the brace or semicolon that ends it, or something is reported: nothing in a type is skipped to the
end of the file without a word. A member that is found malformed has been reported before it is skipped.

* `Reading.Level.typeBody`, `Reading.Level.enumBody`: bodies end behind the brace that closes them.
* `TypeReader.Stays`: a reader of types ends in the body that it began in.
* `TypeDeclaration.stays`: so do types, by induction on the tokens ahead.
-/

namespace CSharpStyle

/-- A type ends in the body that it began in, behind its last token. -/
structure TypeReader.Stays (typeDeclaration : TypeReader) : Prop where
  read {floor : Floor} {s : Reading} (h : s.Level floor) (hsees : s.cursor.seesTypeDeclaration = true)
    (scope : ScopeId) (header : Header) : (typeDeclaration scope header s).Ended floor

/-- A type begins with a keyword. -/
theorem Cursor.exists_of_seesTypeDeclaration {c : Cursor} (h : c.seesTypeDeclaration = true) :
    ∃ t, c.peek? = some t ∧ t.kind = .keyword := by
  rw [seesTypeDeclaration] at h
  split at h
  · cases h
  · rw [Bool.and_eq_true, beq_iff_eq] at h
    exact ⟨_, ‹_›, h.1⟩

namespace Reading

variable {pending : List String} {floor : Floor} {s s' : Reading}

namespace Level

theorem declareMember (h : s.Level floor) (place : Place) (header : Header) (name : Token)
    (kind : DeclarationKind) (group : Option GroupPlace) :
    (s.declareMember place header name kind group).Level floor := h

theorem statementEnd (h : s.Level floor) (scope : ScopeId) :
    (Reading.statementEnd scope s).Level floor := h.skipToStatementEnd Statement.stays scope

/-! ### Accessors -/

/-- The brace of a list of accessors may be followed by an initializer in the body around the list. -/
theorem accessorRound {inner : List String} (h : s.Level (.inside (inner ++ floor.closers)))
    (hinner : "\x7d" ∉ inner) (opening : Position) (scope : ScopeId) :
    (Reading.accessorRound opening scope s).All (Level (.inside (inner ++ floor.closers)))
      (Level floor) := by
  have hheader := h.header
  rw [Reading.accessorRound]
  simp only
  split
  · exact (Reported.reportAt _ _ _).level
  · rename_i t hpeek
    split
    · have hclosed := (hheader.leave hpeek ‹_›).stands.level hinner
      split
      · exact (hclosed.eat ‹_› (by decide)).statementEnd scope
      · exact hclosed
    · rename_i hbrace
      split
      · rename_i hword
        have hnext := hheader.next hpeek (by
          refine Bool.eq_false_iff.mpr fun hmark => ?_
          rcases Bool.or_eq_true_iff.mp hmark with hmark | hmark <;>
            simp [(Token.eq_of_isPunctuation hmark).2] at hword)
        split
        · exact hnext.eat ‹_› (by decide)
        · exact (hnext.methodBody Statement.stays scope).settle
      · exact (report_recover _ _).level

theorem accessors (h : s.Level floor) (scope : ScopeId) :
    (Reading.accessors scope s).Level floor := by
  rw [Reading.accessors]
  split
  · exact (h.eat ‹_› (by decide)).statementEnd scope
  · split
    · exact Reported.report _ _
    · rename_i behind heat
      obtain ⟨hsees, rfl⟩ := eq_next_of_eat heat
      obtain ⟨t, ht, -⟩ := Cursor.exists_of_sees hsees
      obtain ⟨inner, hinner, hstands⟩ := h.stands ht
      exact rounds_all (fun h => h.accessorRound hinner _ scope) (fun _ => (Reported.stall _).level)
        (hstands.enter hsees)

/-! ### Fields -/

theorem fieldRound (place : Place) (header : Header) (kind : DeclarationKind) (group : Nat)
    {state : (Token × Nat) × Reading} (h : state.2.Level floor) :
    (Reading.fieldRound place header kind group state).All (fun state => state.2.Level floor)
      (Attempt.Level floor) := by
  have hdeclared := h.declareMember place header state.1.1 kind (some { group, index := state.1.2 })
  have hrank : ((state.2.declareMember place header state.1.1 kind
      (some { group, index := state.1.2 })).skipGroupAt "[").Level floor := hdeclared.skipGroupAt (by decide)
  have hvalue := hrank.skipValue Statement.stays place.scope
  rw [Reading.fieldRound]
  split
  · split
    · exact (hvalue.eat ‹_› (by decide)).name ‹_›
    · exact Reported.report _ _
  · split
    · exact hvalue.eat ‹_› (by decide)
    · exact Reported.report _ _

theorem fields (h : s.Level floor) (place : Place) (header : Header) (name : Token) (kind : DeclarationKind) :
    (Reading.fields place header name kind s).Level floor := by
  have hstart : (((name, 0), s.newGroup.2) : (Token × Nat) × Reading).2.Level floor := h.newGroup
  have hstalled {state : (Token × Nat) × Reading} (_ : state.2.Level floor) :
      (Attempt.malformed state.2.stall).Level floor := Reported.stall _
  exact rounds_all (P := fun state : (Token × Nat) × Reading => state.2.Level floor)
    (fieldRound place header kind s.newGroup.1) hstalled hstart

/-! ### Members -/

theorem memberWithAccessors (h : s.Level floor) (place : Place) (header : Header) (name : Token)
    (isExplicit : Bool) (kind : DeclarationKind) :
    (Reading.memberWithAccessors place header name isExplicit kind s).Level floor := by
  have hnamed : (if isExplicit then s else s.declareMember place header name kind none).Level floor := by
    split
    · exact h
    · exact h.declareMember place header name kind none
  exact (hnamed.openScope .method (some name.identifierName) place.scope).accessors _

theorem memberName (h : s.Level floor) (first : Token) : (s.memberName first).2.Level floor :=
  h.imp_right fun hlevel => ((Cursor.lockstep_level floor).qualifiedMember ⟨rfl, hlevel⟩ rfl false).2.2.2

theorem event (h : s.Level floor) (place : Place) (header : Header) :
    (Reading.event place header s).Level floor := by
  rw [Reading.event]
  split
  · exact Reported.report _ _
  · have htype := h.type ‹_›
    split
    · exact Reported.report _ _
    · rename_i first behind hfirst
      have hname := (htype.name hfirst).memberName first
      simp only
      split
      · exact hname.memberWithAccessors place header _ _ .event
      · exact hname.fields place header _ .event

theorem namedMember (h : s.Level floor) (place : Place) (header : Header) (first : Token) :
    (Reading.namedMember place header first s).Level floor := by
  have hname := h.memberName first
  rw [Reading.namedMember]
  simp only
  split
  · have hnamed : (if (s.memberName first).1.2 then (s.memberName first).2 else
        (s.memberName first).2.declareMember place header (s.memberName first).1.1 .method none).Level floor := by
      split
      · exact hname
      · exact hname.declareMember place header _ .method none
    exact hnamed.methodRest Statement.stays place.scope _
  · split
    · exact hname.memberWithAccessors place header _ _ .property
    · split
      · exact hname.fields place header _ .field
      · exact Reported.report _ _

/-- Between the word `operator` and the parameters there are no braces. -/
theorem skipOperator (h : s.Level floor) (heat : s.eatKeyword? "operator" = some s') :
    (s'.move (.skipWhile (!·.isPunctuation "("))).Level floor := by
  obtain ⟨c, hc, rfl⟩ := Option.map_eq_some_iff.mp heat
  obtain ⟨hsees, hnext⟩ := Option.ite_none_right_eq_some.mp hc
  cases hnext
  obtain ⟨t, ht, hword⟩ := (Option.any_eq_true _ _).mp hsees
  have hbehind := h.next ht (Token.not_isBrace_of_isKeyword hword)
  obtain ⟨inner, -, hreported | hstands⟩ := h.stands ht
  · exact .inl hreported
  · refine hbehind.skipWhile ?_
    obtain ⟨⟨before, _ | ⟨u, ahead⟩⟩, outline, errors, stalled⟩ := s
    · cases ht
    · cases ht
      have hplain := (Token.isOrderly_cons hstands.orderly).2.1
      rw [Token.isPlain, hword, Bool.and_eq_true, Bool.and_eq_true] at hplain
      exact hplain.1.2

theorem typedMember (h : s.Level floor) (place : Place) (header : Header) :
    (Reading.typedMember place header s).Level floor := by
  have href : ((s.eatKeyword? "ref").elim s (·.move (·.skipKeyword "readonly"))).Level floor := by
    cases heat : s.eatKeyword? "ref" with
    | none => exact h
    | some behind => exact (h.eatKeyword heat).skipKeyword "readonly"
  rw [Reading.typedMember]
  simp only
  split
  · exact Reported.report _ _
  · rename_i isVar behind htype
    have htype := href.type htype
    split
    · rename_i hthis
      obtain ⟨hword, hbracket⟩ := Bool.and_eq_true_iff.mp hthis
      have hopen := (htype.next_of_seesKeyword hword).openScope .method (some "this") place.scope
      exact (hopen.parameterList Statement.stays (.inr hbracket) _ .parameter .parameter).accessors _
    · split
      · exact (htype.skipOperator ‹_›).methodRest Statement.stays place.scope "operator"
      · split
        · exact (htype.name ‹_›).namedMember place header _
        · exact Reported.report _ _

theorem conversionOperator (h : s.Level floor) (scope : ScopeId) :
    (Reading.conversionOperator scope s).Level floor := by
  rw [Reading.conversionOperator]
  split
  · exact Reported.report _ _
  · have hoperator := h.eatKeyword ‹_›
    split
    · exact Reported.report _ _
    · exact (hoperator.type ‹_›).methodRest Statement.stays scope "operator"

theorem finalizer (h : s.Level floor) (scope : ScopeId) :
    (Reading.finalizer scope s).Level floor := by
  rw [Reading.finalizer]
  split
  · exact Reported.report _ _
  · exact (h.name ‹_›).methodRest Statement.stays scope "finalizer"

/-! ### Bodies of types -/

theorem enumRound (h : s.Level (.inside pending)) (opening : Position) (scope : ScopeId) :
    (Reading.enumRound opening scope s).All (Level (.inside pending)) (Closed pending) := by
  have hattributes := h.skipAttributes
  rw [Reading.enumRound]
  simp only
  split
  · exact (Reported.reportAt _ _ _).closed
  · split
    · exact hattributes.leave ‹_› ‹_›
    · split
      · exact (Reported.report _ _).next.level
      · rename_i name behind hname
        have hdeclared := (hattributes.name hname).declareName scope name .publicMember .enumMember .isPublic
        have hvalue := hdeclared.skipValue Statement.stays scope
        split
        · exact hvalue.eat ‹_› (by decide)
        · split
          · exact hvalue
          · exact (report_recover _ _).level

theorem enumBody (h : s.Level (.inside pending)) (opening : Position) (scope : ScopeId) :
    (Reading.enumBody opening scope s).Closed pending :=
  rounds_all (fun h => h.enumRound opening scope) (fun _ => (Reported.stall _).closed) h

theorem delegate (h : s.Level floor) (scope : ScopeId) (header : Header) :
    (Reading.delegate scope header s).Ended floor := by
  rw [Reading.delegate]
  split
  · exact (report_recover _ _).ended
  · have htype := h.type ‹_›
    split
    · exact (report_recover _ _).ended
    · rename_i name behind hname
      let opened := (behind.declareName scope name .typeName .type header.modifiers.accessibility).openScope .method
        (some name.identifierName) scope
      have hopen : opened.2.Level floor :=
        ((htype.name hname).declareName scope name _ _ _).openScope .method (some name.identifierName) scope
      have hparameters := hopen.typeParameters opened.1
      have hlist : (if (opened.2.typeParameters opened.1).sees "(" then
          Reading.parameterList Statement.read opened.1 .parameter .parameter (opened.2.typeParameters opened.1)
          else opened.2.typeParameters opened.1).Level floor := by
        split
        · exact hparameters.parameterList Statement.stays (.inl ‹_›) opened.1 .parameter .parameter
        · exact hparameters
      simp only
      split
      · exact hlist.skipConstraints.eat_semicolon ‹_›
      · exact (report_recover _ _).ended

theorem primaryParameters (h : s.Level floor) (scope : ScopeId) (kind : TypeKind) (name : Token) :
    (Reading.primaryParameters scope kind name s).Level floor := by
  rw [Reading.primaryParameters]
  split
  · split
    · exact h.parameterList Statement.stays (.inl ‹_›) scope .publicMember .recordProperty
    · exact (h.openScope .method (some name.identifierName) scope).parameterList Statement.stays (.inl ‹_›) _
        .parameter .parameter
  · exact h

theorem skipUntil_isBodyMark (h : s.Level floor) : (s.move (.skipUntil isBodyMark)).Level floor := by
  refine h.skipUntil (fun hab => by rw [isBodyMark, isBodyMark, hab.kind, hab.text]) fun {a} ha => ?_
  obtain ⟨hkind, htext⟩ := Token.eq_of_isWall ha
  rcases htext with htext | htext | htext <;> simp [isBodyMark, hkind, htext]

/-! ### Types -/

section Types

variable {typeDeclaration : TypeReader} (htype : typeDeclaration.Stays)
include htype

theorem member (h : s.Level floor) (place : Place) :
    (Reading.member typeDeclaration place s).Level floor := by
  have hheader := h.header
  rw [Reading.member]
  simp only
  split
  · exact hheader
  · rename_i t hpeek
    split
    · exact hheader
    · split
      · exact (htype.read hheader ‹_› place.scope _).level
      · split
        · rename_i hword
          exact (hheader.next hpeek (Token.not_isBrace_of_isKeyword hword)).event place _
        · split
          · rename_i hword
            have hword := (Bool.or_eq_true_iff.mp hword).elim Token.not_isBrace_of_isKeyword
              Token.not_isBrace_of_isKeyword
            exact (hheader.next hpeek hword).conversionOperator place.scope
          · split
            · rename_i hmark
              exact (hheader.next hpeek (Token.not_isBrace_of_isPunctuation hmark (by decide))).finalizer place.scope
            · split
              · rename_i hname
                have hname := Token.not_isBrace_of_isName (Bool.and_eq_true_iff.mp hname).1
                exact (hheader.next hpeek hname).methodRest Statement.stays place.scope _
              · exact hheader.typedMember place _

theorem typeBodyRound (h : s.Level (.inside pending)) (opening : Position) (place : Place) :
    (Reading.typeBodyRound typeDeclaration opening place s).All (Level (.inside pending))
      (Closed pending) := by
  rw [Reading.typeBodyRound]
  split
  · exact (Reported.reportAt _ _ _).closed
  · split
    · exact h.leave ‹_› ‹_›
    · split
      · rename_i hmark
        exact h.next ‹_› (Token.not_isBrace_of_isPunctuation hmark (by decide))
      · exact progress (h.member htype place).settle

theorem typeBody (h : s.Level (.inside pending)) (opening : Position) (place : Place) :
    (Reading.typeBody typeDeclaration opening place s).Closed pending :=
  rounds_all (fun h => h.typeBodyRound htype opening place) (fun _ => (Reported.stall _).closed) h

theorem bodyOfType (h : s.Level floor) (scope : ScopeId) (kind : TypeKind) :
    (Reading.bodyOfType typeDeclaration scope kind s).Ended floor := by
  rw [Reading.bodyOfType]
  split
  · rename_i behind heat
    obtain ⟨hsees, rfl⟩ := eq_next_of_eat heat
    obtain ⟨t, ht, -⟩ := Cursor.exists_of_sees hsees
    obtain ⟨inner, hinner, hstands⟩ := h.stands ht
    have hinside := hstands.enter hsees
    refine ⟨inner, hinner, Closed.skip_semicolon ?_⟩
    split
    · exact hinside.enumBody _ scope
    · exact hinside.typeBody htype _ ⟨scope, kind⟩
  · exact h.require_semicolon _

theorem namedType (h : s.Level floor) (word : String) (kind : TypeKind) (scope : ScopeId) (header : Header) :
    (Reading.namedType typeDeclaration word kind scope header s).Ended floor := by
  rw [Reading.namedType]
  split
  · exact (report_recover _ _).ended
  · rename_i name behind hname
    let accessibility := typeAccessibility header (behind.outline.typeKindOf scope)
    let inner := ((behind.declareName scope name (typeRole kind) .type accessibility).openType kind
      name.identifierName scope).1
    have hdeclared := (h.name hname).declareName scope name (typeRole kind) .type accessibility
    have hparameters := (hdeclared.openType kind name.identifierName scope).typeParameters inner
    exact (hparameters.primaryParameters inner kind name).skipUntil_isBodyMark.bodyOfType htype inner kind

theorem typeDeclarationAt (h : s.Level floor) (hsees : s.cursor.seesTypeDeclaration = true) (scope : ScopeId)
    (header : Header) : (Reading.typeDeclarationAt typeDeclaration scope header s).Ended floor := by
  obtain ⟨t, hpeek, hkind⟩ := Cursor.exists_of_seesTypeDeclaration hsees
  have hnext := h.next hpeek (Token.not_isBrace_of_kind (by simp [hkind]))
  rw [Reading.typeDeclarationAt, show s.peek? = some t from hpeek]
  simp only
  split
  · exact hnext.delegate scope header
  · exact (hnext.skipEither "class" "struct").namedType htype _ .recordType scope header
  · exact hnext.namedType htype _ _ scope header

end Types

end Level

end Reading

/-- Types stay in their body. The induction is on the tokens ahead: a type inside another one has fewer. -/
theorem TypeDeclaration.stays : TypeReader.Stays TypeDeclaration.read where
  read {floor s} h hsees scope header := by
    induction hsize : s.size using Nat.strongRecOn generalizing floor s scope header with
    | ind n ih =>
      rw [TypeDeclaration.read]
      refine h.typeDeclarationAt ⟨fun {floor t} ht hsees inner header => ?_⟩ hsees scope header
      by_cases hlt : t.size < s.size
      · rw [if_pos hlt]
        exact ih t.size (hsize ▸ hlt) ht hsees inner header rfl
      · rw [if_neg hlt]
        exact (Reading.Reported.stall t).ended

end CSharpStyle
