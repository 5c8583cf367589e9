import CSharpStyle.Proofs.Correspondence.Statement

/-!
# Corresponding types and members

Every form of member leads, and so does the reader of type declarations: the types inside a type are read behind the
keyword that begins it.
-/

namespace CSharpStyle

/-- What is read of a member behind its header. -/
def Reading.memberBehind (typeDeclaration : TypeReader) (place : Place) (header : Header) (s : Reading) : Attempt :=
  match s.peek? with
  | none => .complete s
  | some t =>
    if t.isPunctuation "\x7d" then .complete s
    else if s.cursor.seesTypeDeclaration then .complete (typeDeclaration place.scope header s)
    else if t.isKeyword "event" then event place header s.next
    else if t.isKeyword "implicit" || t.isKeyword "explicit" then conversionOperator place.scope s.next
    else if t.isPunctuation "~" then finalizer place.scope s.next
    else if t.isName && s.cursor.seesSecond "(" then
      methodRest Statement.read place.scope t.identifierName s.next
    else typedMember place header s

theorem Reading.member_eq (typeDeclaration : TypeReader) (place : Place) (s : Reading) :
    member typeDeclaration place s = memberBehind typeDeclaration place s.header.1 s.header.2 :=
  rfl

/-- Records a type behind its name `name`, and reads what stands in front of its body. Gives the scope of the body. -/
def Reading.frontOfBody (kind : TypeKind) (scope : ScopeId) (header : Header) (name : Token) (s : Reading) :
    ScopeId × Reading :=
  let accessibility := typeAccessibility header (s.outline.typeKindOf scope)
  let (inner, s) := (s.declareName scope name (typeRole kind) .type accessibility).openType kind name.identifierName scope
  (inner, (primaryParameters inner kind name (s.typeParameters inner)).move (.skipUntil isBodyMark))

theorem Reading.namedType_eq (typeDeclaration : TypeReader) (word : String) (kind : TypeKind) (scope : ScopeId)
    (header : Header) (s : Reading) :
    namedType typeDeclaration word kind scope header s =
      match s.name? with
      | none => (s.report (.nameless s!"{word} declaration")).recover
      | some (name, s) =>
        bodyOfType typeDeclaration (frontOfBody kind scope header name s).1 kind
          (frontOfBody kind scope header name s).2 :=
  rfl

namespace Correspondence

open Cursor

variable {C : Correspondence} {n : Nat} {F G : TypeReader} {s t : Reading} {i j : ScopeId} {o : TypeKind}

/-- The readers of type declarations lead wherever fewer than `n` tokens are ahead. -/
def Types (C : Correspondence) (n : Nat) (F G : TypeReader) : Prop :=
  ∀ {s t : Reading} {i j : ScopeId} (header : Header), C.Related s t → C.scopes s.outline t.outline i j →
    s.size < n → C.Leads s t (F i header s) (G j header t)

theorem Related.declareMember (h : C.Related s t) (hij : C.scopes s.outline t.outline i j) (o : TypeKind)
    (header : Header) {a b : Token} (hab : C.tokens a b) (kind : DeclarationKind)
    {group group' : Option GroupPlace} (hgroup : Option.Rel (GroupPlace.Alike C.groups) group group') :
    C.Leads s t (s.declareMember ⟨i, o⟩ header a kind group) (t.declareMember ⟨j, o⟩ header b kind group') :=
  h.declare hij ⟨(C.alike hab).identifierName, rfl, rfl, rfl, rfl, C.start hab, hgroup⟩

theorem statementEnd (h : C.Related s t) (hij : C.scopes s.outline t.outline i j) :
    C.Leads s t (Reading.statementEnd i s) (Reading.statementEnd j t) :=
  skipToStatementEnd (statements s.size) h hij (Nat.le_refl _)

theorem accessorRound (h : C.Related s t) (hij : C.scopes s.outline t.outline i j) {p q : Position}
    (hpq : C.positions p q) :
    Round.Rel (C.Advances s t) (C.Leads s t) (Reading.accessorRound p i s) (Reading.accessorRound q j t) := by
  have hheader := h.header.2
  simp only [Reading.accessorRound]
  rcases hheader.related.peek_cases with ⟨hs, ht⟩ | ⟨a, b, hs, ht, hab⟩
  · rw [hs, ht]; exact .done (hheader.trans (hheader.related.reportAt hpq _))
  · have hnext := hheader.advances (hheader.related.next (ahead_ne_nil_of_peek? hs))
    simp only [hs, ht, ← (C.alike hab).isPunctuation, ← (C.alike hab).text]
    split
    · rcases hnext.leads.related.eat_cases "=" with ⟨hs, ht⟩ | ⟨s', t', hs, ht, hsign⟩
      · rw [hs, ht]; exact .done hnext.leads
      · have hsign := hnext.leads.trans hsign.leads
        rw [hs, ht]; exact .done (hsign.trans (statementEnd hsign.related (hsign.scopes hij)))
    · split
      · rcases hnext.leads.related.eat_cases ";" with ⟨hs, ht⟩ | ⟨s', t', hs, ht, hsemi⟩
        · rw [hs, ht]
          exact .again (hnext.trans (settle (methodBody (statements _) hnext.leads.related
            (hnext.leads.scopes hij) (Nat.le_refl _))))
        · rw [hs, ht]; exact .again (hnext.trans hsemi.leads)
      · have hreport := hheader.trans (hheader.related.report (.unexpectedAccessor a.text))
        have hrecover := hreport.related.recover_advances hs (Bool.eq_false_iff.mpr ‹_›)
        exact .again (hreport.advances hrecover)

theorem accessors (h : C.Related s t) (hij : C.scopes s.outline t.outline i j) :
    Attempt.Rel (C.Leads s t) (Reading.accessors i s) (Reading.accessors j t) := by
  rw [Reading.accessors, Reading.accessors]
  rcases h.eat_cases "=>" with ⟨hs, ht⟩ | ⟨s', t', hs, ht, harrow⟩
  · rcases h.eat_cases "\x7b" with ⟨hs', ht'⟩ | ⟨s', t', hs', ht', hbrace⟩
    · simp only [hs, ht, hs', ht']; exact .malformed (h.report _)
    · simp only [hs, ht, hs', ht']
      refine .complete (hbrace.leads.trans (rounds_leads hbrace.leads.related fun h' => ?_))
      exact accessorRound h'.related (h'.scopes (hbrace.leads.scopes hij)) (C.position h.cursor)
  · simp only [hs, ht]
    exact .complete (harrow.leads.trans (statementEnd harrow.leads.related (harrow.leads.scopes hij)))

theorem fieldRound (h : C.Related s t) (hij : C.scopes s.outline t.outline i j)
    (header : Header) (kind : DeclarationKind) {group group' : Nat} (hgroup : C.groups group group')
    {a b : Token} (hab : C.tokens a b) (index : Nat) :
    Round.Rel (fun p q => (C.tokens p.1.1 q.1.1 ∧ p.1.2 = q.1.2) ∧ C.Advances s t p.2 q.2)
      (Attempt.Rel (C.Leads s t))
      (Reading.fieldRound ⟨i, o⟩ header kind group ((a, index), s))
      (Reading.fieldRound ⟨j, o⟩ header kind group' ((b, index), t)) := by
  have hplace : Option.Rel (GroupPlace.Alike C.groups) (some ⟨group, index⟩) (some ⟨group', index⟩) :=
    .some ⟨hgroup, rfl⟩
  have hdeclare := h.declareMember hij o header hab kind hplace
  have hrank := hdeclare.trans (hdeclare.related.skipGroupAt "[" (.inr rfl))
  have hvalue := hrank.trans (skipValue (statements _) hrank.related (hrank.scopes hij) (Nat.le_refl _))
  simp only [Reading.fieldRound]
  rcases hvalue.related.eat_cases "," with ⟨hs, ht⟩ | ⟨s', t', hs, ht, hcomma⟩
  · simp only [hs, ht]
    rcases hvalue.related.eat_cases ";" with ⟨hs, ht⟩ | ⟨s', t', hs, ht, hsemi⟩
    · rw [hs, ht]; exact .done (.malformed (hvalue.trans (hvalue.related.report _)))
    · rw [hs, ht]; exact .done (.complete (hvalue.trans hsemi.leads))
  · have hcomma := hvalue.trans hcomma.leads
    simp only [hs, ht]
    rcases hcomma.related.name_cases with ⟨hs, ht⟩ | ⟨a', b', s'', t'', hs, ht, hab', hname⟩
    · rw [hs, ht]; exact .done (.malformed (hcomma.trans (hcomma.related.report _)))
    · rw [hs, ht]; exact .again ⟨⟨hab', rfl⟩, hcomma.advances hname⟩

theorem fields (h : C.Related s t) (hij : C.scopes s.outline t.outline i j)
    (header : Header) {a b : Token} (hab : C.tokens a b) (kind : DeclarationKind) :
    Attempt.Rel (C.Leads s t) (Reading.fields ⟨i, o⟩ header a kind s)
      (Reading.fields ⟨j, o⟩ header b kind t) := by
  obtain ⟨hgroup, hopen⟩ := h.newGroup
  rw [Reading.fields, Reading.fields]
  refine rounds_leads_with Prod.snd Prod.snd (fun p q => C.tokens p.1.1 q.1.1 ∧ p.1.2 = q.1.2) ?_ ⟨hab, rfl⟩ hopen
  rintro ⟨⟨a, index⟩, s'⟩ ⟨⟨b, index'⟩, t'⟩ ⟨hab, hindex⟩ h'
  cases hindex
  exact (fieldRound h'.related (h'.scopes hij) header kind hgroup hab index).imp id h'.attempt

theorem memberWithAccessors (h : C.Related s t) (hij : C.scopes s.outline t.outline i j) (header : Header)
    {a b : Token} (hab : C.tokens a b) (isExplicit : Bool) (kind : DeclarationKind) :
    Attempt.Rel (C.Leads s t) (Reading.memberWithAccessors ⟨i, o⟩ header a isExplicit kind s)
      (Reading.memberWithAccessors ⟨j, o⟩ header b isExplicit kind t) := by
  have hdeclare : C.Leads s t (if isExplicit then s else s.declareMember ⟨i, o⟩ header a kind none)
      (if isExplicit then t else t.declareMember ⟨j, o⟩ header b kind none) := by
    split
    · exact .refl h
    · exact h.declareMember hij o header hab kind .none
  obtain ⟨hopen, hscope⟩ := hdeclare.related.openScope (hdeclare.scopes hij) .method (some a.identifierName)
    (by decide)
  have hopen := hdeclare.trans hopen
  simp only [Reading.memberWithAccessors, ← (C.alike hab).identifierName]
  exact hopen.attempt (accessors hopen.related hscope)

theorem Related.memberName (h : C.Related s t) {a b : Token} (hab : C.tokens a b) :
    C.tokens (s.memberName a).1.1 (t.memberName b).1.1 ∧ (s.memberName a).1.2 = (t.memberName b).1.2 ∧
      C.Leads s t (s.memberName a).2 (t.memberName b).2 := by
  obtain ⟨hname, hexplicit, hmove⟩ := (C.lockstep s.size).qualifiedMember h.within hab false
  exact ⟨hname, hexplicit, h.move hmove⟩

theorem event (h : C.Related s t) (hij : C.scopes s.outline t.outline i j) (header : Header) :
    Attempt.Rel (C.Leads s t) (Reading.event ⟨i, o⟩ header s) (Reading.event ⟨j, o⟩ header t) := by
  rw [Reading.event, Reading.event]
  rcases h.type_cases with ⟨hs, ht⟩ | ⟨isVar, s', t', hs, ht, htype⟩
  · rw [hs, ht]; exact .malformed (h.report _)
  · have htype := htype.leads
    simp only [hs, ht]
    rcases htype.related.name_cases with ⟨hs, ht⟩ | ⟨a, b, s'', t'', hs, ht, hab, hname⟩
    · rw [hs, ht]; exact .malformed (htype.trans (htype.related.report _))
    · have hname := htype.trans hname.leads
      obtain ⟨hab, hexplicit, hmember⟩ := hname.related.memberName hab
      have hmember := hname.trans hmember
      simp only [hs, ht, ← hmember.related.sees, ← hexplicit]
      split
      · exact hmember.attempt (memberWithAccessors hmember.related (hmember.scopes hij) header hab _ .event)
      · exact hmember.attempt (fields hmember.related (hmember.scopes hij) header hab .event)

theorem namedMember (h : C.Related s t) (hij : C.scopes s.outline t.outline i j) (header : Header) {a b : Token}
    (hab : C.tokens a b) :
    Attempt.Rel (C.Leads s t) (Reading.namedMember ⟨i, o⟩ header a s) (Reading.namedMember ⟨j, o⟩ header b t) := by
  obtain ⟨hab, hexplicit, hmember⟩ := h.memberName hab
  have hij := hmember.scopes hij
  simp only [Reading.namedMember, ← hmember.related.sees, ← hexplicit]
  split
  · have hdeclare : C.Leads (s.memberName a).2 (t.memberName b).2
        (if (s.memberName a).1.2 then (s.memberName a).2
          else (s.memberName a).2.declareMember ⟨i, o⟩ header (s.memberName a).1.1 .method none)
        (if (s.memberName a).1.2 then (t.memberName b).2
          else (t.memberName b).2.declareMember ⟨j, o⟩ header (t.memberName b).1.1 .method none) := by
      split
      · exact .refl hmember.related
      · exact hmember.related.declareMember hij o header hab .method .none
    rw [(C.alike hab).identifierName]
    exact (hmember.trans hdeclare).attempt
      (methodRest (statements _) hdeclare.related (hdeclare.scopes hij) (Nat.le_refl _) _)
  · split
    · exact hmember.attempt (memberWithAccessors hmember.related hij header hab _ .property)
    · split
      · exact hmember.attempt (fields hmember.related hij header hab .field)
      · exact .malformed (hmember.trans (hmember.related.report _))

theorem typedMember (h : C.Related s t) (hij : C.scopes s.outline t.outline i j) (header : Header) :
    Attempt.Rel (C.Leads s t) (Reading.typedMember ⟨i, o⟩ header s) (Reading.typedMember ⟨j, o⟩ header t) := by
  have hstart : s.peek?.elim "" (·.text) = t.peek?.elim "" (·.text) := by
    rcases h.peek_cases with ⟨hs, ht⟩ | ⟨a, b, hs, ht, hab⟩
    · rw [hs, ht]
    · rw [hs, ht, Option.elim_some, Option.elim_some, (C.alike hab).text]
  have href : C.Leads s t ((s.eatKeyword? "ref").elim s (·.move (·.skipKeyword "readonly")))
      ((t.eatKeyword? "ref").elim t (·.move (·.skipKeyword "readonly"))) := by
    rcases h.eatKeyword_cases "ref" with ⟨hs, ht⟩ | ⟨s', t', hs, ht, href⟩
    · rw [hs, ht]; exact .refl h
    · have h' := href.leads.related
      rw [hs, ht]
      exact href.leads.trans (h'.move ((C.lockstep s'.size).skipKeyword h'.within "readonly"))
  simp only [Reading.typedMember, hstart]
  rcases href.related.type_cases with ⟨hs, ht⟩ | ⟨isVar, s', t', hs, ht, htype⟩
  · rw [hs, ht]; exact .malformed (href.trans (href.related.report _))
  · have htype := href.trans htype.leads
    simp only [hs, ht, ← htype.related.seesKeyword, ← htype.related.seesSecond]
    split
    · rename_i hthis
      obtain ⟨a, ha, -⟩ := (Option.any_eq_true _ _).mp (Bool.and_eq_true_iff.mp hthis).1
      have hnext := htype.advances (htype.related.next (ahead_ne_nil_of_peek? ha))
      obtain ⟨hopen, hscope⟩ := hnext.leads.related.openScope (hnext.leads.scopes hij) .method (some "this")
        (by decide)
      have hlist := parameterList (statements _) hopen.related hscope (Nat.le_refl _) .parameter .parameter
      exact (hnext.leads.trans (hopen.trans hlist)).attempt (accessors hlist.related (hlist.scopes hscope))
    · rcases htype.related.eatKeyword_cases "operator" with ⟨hs, ht⟩ | ⟨s'', t'', hs, ht, hoperator⟩
      · rcases htype.related.name_cases with ⟨hs', ht'⟩ | ⟨a, b, s'', t'', hs', ht', hab, hname⟩
        · simp only [hs, ht, hs', ht']; exact .malformed (htype.trans (htype.related.report _))
        · have hname := htype.trans hname.leads
          simp only [hs, ht, hs', ht']
          exact hname.attempt (namedMember hname.related (hname.scopes hij) header hab)
      · have hoperator := htype.trans hoperator.leads
        have hskip := hoperator.trans
          (hoperator.related.skipWhile (p := (!·.isPunctuation "(")) fun hab => by rw [hab.isPunctuation])
        simp only [hs, ht]
        exact hskip.attempt
          (methodRest (statements _) hskip.related (hskip.scopes hij) (Nat.le_refl _) "operator")

theorem conversionOperator (h : C.Related s t) (hij : C.scopes s.outline t.outline i j) :
    Attempt.Rel (C.Leads s t) (Reading.conversionOperator i s) (Reading.conversionOperator j t) := by
  rw [Reading.conversionOperator, Reading.conversionOperator]
  rcases h.eatKeyword_cases "operator" with ⟨hs, ht⟩ | ⟨s', t', hs, ht, hoperator⟩
  · rw [hs, ht]; exact .malformed (h.report _)
  · have hoperator := hoperator.leads
    simp only [hs, ht]
    rcases hoperator.related.type_cases with ⟨hs, ht⟩ | ⟨isVar, s', t', hs, ht, htype⟩
    · rw [hs, ht]; exact .malformed (hoperator.trans (hoperator.related.report _))
    · have htype := hoperator.trans htype.leads
      rw [hs, ht]
      exact htype.attempt (methodRest (statements _) htype.related (htype.scopes hij) (Nat.le_refl _) "operator")

theorem finalizer (h : C.Related s t) (hij : C.scopes s.outline t.outline i j) :
    Attempt.Rel (C.Leads s t) (Reading.finalizer i s) (Reading.finalizer j t) := by
  rw [Reading.finalizer, Reading.finalizer]
  rcases h.name_cases with ⟨hs, ht⟩ | ⟨a, b, s', t', hs, ht, hab, hname⟩
  · rw [hs, ht]; exact .malformed (h.report _)
  · have hname := hname.leads
    rw [hs, ht]
    exact hname.attempt (methodRest (statements _) hname.related (hname.scopes hij) (Nat.le_refl _) "finalizer")

theorem memberBehind (hread : C.Types n F G) (h : C.Related s t) (hij : C.scopes s.outline t.outline i j)
    (hn : s.size < n) (header : Header) :
    Attempt.Rel (C.Leads s t) (Reading.memberBehind F ⟨i, o⟩ header s) (Reading.memberBehind G ⟨j, o⟩ header t) := by
  rw [Reading.memberBehind, Reading.memberBehind]
  rcases h.peek_cases with ⟨hs, ht⟩ | ⟨a, b, hs, ht, hab⟩
  · rw [hs, ht]; exact .complete (.refl h)
  · have hnext := (h.next (ahead_ne_nil_of_peek? hs)).leads
    have hij' := hnext.scopes hij
    have htype : s.cursor.seesTypeDeclaration = t.cursor.seesTypeDeclaration :=
      (C.lockstep _).seesTypeDeclaration h.within
    simp only [hs, ht, ← (C.alike hab).isPunctuation, ← (C.alike hab).isKeyword, ← (C.alike hab).isName,
      ← h.seesSecond, ← htype, ← (C.alike hab).identifierName]
    split
    · exact .complete (.refl h)
    · split
      · exact .complete (hread _ h hij hn)
      · split
        · exact hnext.attempt (event hnext.related hij' _)
        · split
          · exact hnext.attempt (conversionOperator hnext.related hij')
          · split
            · exact hnext.attempt (finalizer hnext.related hij')
            · split
              · exact hnext.attempt (methodRest (statements _) hnext.related hij' (Nat.le_refl _) _)
              · exact typedMember h hij _

theorem member (hread : C.Types n F G) (h : C.Related s t) (hij : C.scopes s.outline t.outline i j)
    (hn : s.size < n) :
    Attempt.Rel (C.Leads s t) (Reading.member F ⟨i, o⟩ s) (Reading.member G ⟨j, o⟩ t) := by
  obtain ⟨hheader, hbehind⟩ := h.header
  rw [Reading.member_eq, Reading.member_eq, ← hheader]
  exact hbehind.attempt (memberBehind hread hbehind.related (hbehind.scopes hij)
    (Nat.lt_of_le_of_lt hbehind.size_le hn) _)

theorem typeBodyRound (hread : C.Types n F G) (h : C.Related s t) (hij : C.scopes s.outline t.outline i j)
    (hn : s.size < n) {p q : Position} (hpq : C.positions p q) :
    Round.Rel (C.Advances s t) (C.Leads s t) (Reading.typeBodyRound F p ⟨i, o⟩ s)
      (Reading.typeBodyRound G q ⟨j, o⟩ t) := by
  rw [Reading.typeBodyRound, Reading.typeBodyRound]
  rcases h.peek_cases with ⟨hs, ht⟩ | ⟨a, b, hs, ht, hab⟩
  · rw [hs, ht]; exact .done (h.reportAt hpq _)
  · have hne := ahead_ne_nil_of_peek? hs
    have hnext := h.next hne
    simp only [hs, ht, ← (C.alike hab).isPunctuation]
    split
    · exact .done hnext.leads
    · split
      · exact .again hnext
      · exact .again (h.progress hne (settle (member hread h hij hn)))

theorem typeBody (hread : C.Types n F G) (h : C.Related s t) (hij : C.scopes s.outline t.outline i j)
    (hn : s.size < n) {p q : Position} (hpq : C.positions p q) :
    C.Leads s t (Reading.typeBody F p ⟨i, o⟩ s) (Reading.typeBody G q ⟨j, o⟩ t) :=
  rounds_leads h fun h' =>
    typeBodyRound hread h'.related (h'.scopes hij) (Nat.lt_of_le_of_lt h'.size_le hn) hpq

theorem enumRound (h : C.Related s t) (hij : C.scopes s.outline t.outline i j) {p q : Position}
    (hpq : C.positions p q) :
    Round.Rel (C.Advances s t) (C.Leads s t) (Reading.enumRound p i s) (Reading.enumRound q j t) := by
  have hattributes : C.Leads s t (s.move .skipAttributes) (t.move .skipAttributes) :=
    h.move ((C.lockstep s.size).skipAttributes h.within)
  simp only [Reading.enumRound]
  rcases hattributes.related.peek_cases with ⟨hs, ht⟩ | ⟨a, b, hs, ht, hab⟩
  · rw [hs, ht]; exact .done (hattributes.trans (hattributes.related.reportAt hpq _))
  · have hne := ahead_ne_nil_of_peek? hs
    simp only [hs, ht, ← (C.alike hab).isPunctuation]
    split
    · exact .done (hattributes.trans (hattributes.related.next hne).leads)
    · rcases hattributes.related.name_cases with ⟨hs, ht⟩ | ⟨a, b, s', t', hs, ht, hab, hname⟩
      · have hreport := hattributes.trans (hattributes.related.report (.expectedName "enum member name"))
        rw [hs, ht]
        exact .again (hreport.advances (hreport.related.next hne))
      · have hname := hattributes.advances hname
        have hdeclare := hname.trans (hname.leads.related.declareName (hname.leads.scopes hij) hab .publicMember
          .enumMember .isPublic)
        have hvalue := hdeclare.trans
          (skipValue (statements _) hdeclare.leads.related (hdeclare.leads.scopes hij) (Nat.le_refl _))
        simp only [hs, ht]
        rcases hvalue.leads.related.eat_cases "," with ⟨hs, ht⟩ | ⟨s'', t'', hs, ht, hcomma⟩
        · simp only [hs, ht, ← hvalue.leads.related.sees]
          split
          · exact .again hvalue
          · have hreport := hvalue.trans (hvalue.leads.related.report (.expected "',' between enum members"))
            exact .again (hreport.trans hreport.leads.related.recover)
        · simp only [hs, ht]
          exact .again (hvalue.trans hcomma.leads)

theorem enumBody (h : C.Related s t) (hij : C.scopes s.outline t.outline i j) {p q : Position}
    (hpq : C.positions p q) : C.Leads s t (Reading.enumBody p i s) (Reading.enumBody q j t) :=
  rounds_leads h fun h' => enumRound h'.related (h'.scopes hij) hpq

/-- Behind a report the rest of a malformed declaration is skipped alike. -/
theorem Leads.report_recover {s' t' : Reading} (h : C.Leads s t s' t') (defect : Defect) :
    C.Leads s t (s'.report defect).recover (t'.report defect).recover := by
  have hreport := h.trans (h.related.report defect)
  exact hreport.trans hreport.related.recover

theorem delegate (h : C.Related s t) (hij : C.scopes s.outline t.outline i j) (header : Header) :
    C.Leads s t (Reading.delegate i header s) (Reading.delegate j header t) := by
  rw [Reading.delegate, Reading.delegate]
  rcases h.type_cases with ⟨hs, ht⟩ | ⟨isVar, s', t', hs, ht, htype⟩
  · rw [hs, ht]; exact (Leads.refl h).report_recover _
  · have htype := htype.leads
    simp only [hs, ht]
    rcases htype.related.name_cases with ⟨hs, ht⟩ | ⟨a, b, s'', t'', hs, ht, hab, hname⟩
    · rw [hs, ht]; exact htype.report_recover _
    · have hname := htype.trans hname.leads
      have hdeclare := hname.trans
        (hname.related.declareName (hname.scopes hij) hab .typeName .type header.modifiers.accessibility)
      obtain ⟨hopen, hscope⟩ :=
        hdeclare.related.openScope (hdeclare.scopes hij) .method (some b.identifierName) (by decide)
      have htypes := hopen.trans (hopen.related.typeParameters hscope)
      have hscope := (hopen.related.typeParameters hscope).scopes hscope
      have hbehind := hdeclare.trans htypes
      have hlist {s' t' : Reading} {i j : ScopeId} (h' : C.Leads s t s' t')
          (hij : C.scopes s'.outline t'.outline i j) :
          C.Leads s t
            (if s'.sees "(" then Reading.parameterList Statement.read i .parameter .parameter s' else s')
            (if t'.sees "(" then Reading.parameterList Statement.read j .parameter .parameter t' else t') := by
        rw [← h'.related.sees]
        split
        · exact h'.trans (parameterList (statements _) h'.related hij (Nat.le_refl _) .parameter .parameter)
        · exact h'
      have hconstraints := (hlist hbehind hscope).trans (hlist hbehind hscope).related.skipConstraints
      simp only [hs, ht, (C.alike hab).identifierName]
      rcases hconstraints.related.eat_cases ";" with ⟨hs, ht⟩ | ⟨s'', t'', hs, ht, hsemi⟩
      · rw [hs, ht]; exact hconstraints.report_recover _
      · rw [hs, ht]; exact hconstraints.trans hsemi.leads

theorem primaryParameters (h : C.Related s t) (hij : C.scopes s.outline t.outline i j) (kind : TypeKind)
    {a b : Token} (hab : C.tokens a b) :
    C.Leads s t (Reading.primaryParameters i kind a s) (Reading.primaryParameters j kind b t) := by
  rw [Reading.primaryParameters, Reading.primaryParameters, ← h.sees, (C.alike hab).identifierName]
  split
  · split
    · exact parameterList (statements _) h hij (Nat.le_refl _) .publicMember .recordProperty
    · obtain ⟨hopen, hscope⟩ := h.openScope hij .method (some b.identifierName) (by decide)
      exact hopen.trans
        (parameterList (statements _) hopen.related hscope (Nat.le_refl _) .parameter .parameter)
  · exact .refl h

theorem bodyOfType (hread : C.Types n F G) (h : C.Related s t) (hij : C.scopes s.outline t.outline i j)
    (hn : s.size ≤ n) (kind : TypeKind) :
    C.Leads s t (Reading.bodyOfType F i kind s) (Reading.bodyOfType G j kind t) := by
  rw [Reading.bodyOfType, Reading.bodyOfType]
  rcases h.eat_cases "\x7b" with ⟨hs, ht⟩ | ⟨s', t', hs, ht, hbrace⟩
  · rw [hs, ht]; exact h.require ";" _
  · have hpq := C.position h.cursor
    have hbody : C.Leads s t
        (if kind = .enumType then Reading.enumBody s.position i s'
          else Reading.typeBody F s.position ⟨i, kind⟩ s')
        (if kind = .enumType then Reading.enumBody t.position j t'
          else Reading.typeBody G t.position ⟨j, kind⟩ t') := by
      have hij := hbrace.leads.scopes hij
      split
      · exact hbrace.leads.trans (enumBody hbrace.leads.related hij hpq)
      · exact hbrace.leads.trans
          (typeBody hread hbrace.leads.related hij (Nat.lt_of_lt_of_le hbrace.size_lt hn) hpq)
    rw [hs, ht]
    exact hbody.trans (hbody.related.skip ";")

/-- What is read of a type in front of its body leads, and the scopes of the bodies are related. -/
theorem frontOfBody (h : C.Related s t) (hij : C.scopes s.outline t.outline i j) (kind : TypeKind) (header : Header)
    {a b : Token} (hab : C.tokens a b) :
    C.Leads s t (Reading.frontOfBody kind i header a s).2 (Reading.frontOfBody kind j header b t).2 ∧
      C.scopes (Reading.frontOfBody kind i header a s).2.outline (Reading.frontOfBody kind j header b t).2.outline
        (Reading.frontOfBody kind i header a s).1 (Reading.frontOfBody kind j header b t).1 := by
  have howner := C.typeKindOf h.outline hij
  have hdeclare := h.declareName hij hab (Reading.typeRole kind) .type
    (Reading.typeAccessibility header (t.outline.typeKindOf j))
  obtain ⟨hopen, hscope⟩ := hdeclare.related.openType (hdeclare.scopes hij) kind b.identifierName
  have htypes := hopen.trans (hopen.related.typeParameters hscope)
  have hscope := (hopen.related.typeParameters hscope).scopes hscope
  have hparameters := htypes.trans (primaryParameters htypes.related hscope kind hab)
  have hscope := (primaryParameters htypes.related hscope kind hab).scopes hscope
  have hskip : C.Leads _ _ _ _ := hparameters.related.skipUntil (p := Reading.isBodyMark)
    (fun hab => by rw [Reading.isBodyMark, Reading.isBodyMark, hab.kind, hab.text]) fun {a} ha => by
      obtain ⟨hkind, htext⟩ := Token.eq_of_isWall ha
      rcases htext with htext | htext | htext <;> simp [Reading.isBodyMark, hkind, htext]
  simp only [Reading.frontOfBody, howner, (C.alike hab).identifierName]
  exact ⟨hdeclare.trans (hparameters.trans hskip), hskip.scopes hscope⟩

theorem namedType (hread : C.Types n F G) (h : C.Related s t) (hij : C.scopes s.outline t.outline i j)
    (hn : s.size ≤ n) (word : String) (kind : TypeKind) (header : Header) :
    C.Leads s t (Reading.namedType F word kind i header s) (Reading.namedType G word kind j header t) := by
  rw [Reading.namedType_eq, Reading.namedType_eq]
  rcases h.name_cases with ⟨hs, ht⟩ | ⟨a, b, s', t', hs, ht, hab, hname⟩
  · rw [hs, ht]; exact (Leads.refl h).report_recover _
  · obtain ⟨hfront, hscope⟩ := frontOfBody hname.leads.related (hname.leads.scopes hij) kind header hab
    have hbehind := hname.leads.trans hfront
    rw [hs, ht]
    exact hbehind.trans (bodyOfType hread hbehind.related hscope (Nat.le_trans hbehind.size_le hn) kind)

theorem typeDeclarationAt (hread : C.Types n F G) (h : C.Related s t) (hij : C.scopes s.outline t.outline i j)
    (hn : s.size ≤ n) (header : Header) :
    C.Leads s t (Reading.typeDeclarationAt F i header s) (Reading.typeDeclarationAt G j header t) := by
  rw [Reading.typeDeclarationAt, Reading.typeDeclarationAt]
  rcases h.peek_cases with ⟨hs, ht⟩ | ⟨a, b, hs, ht, hab⟩
  · rw [hs, ht]; exact .refl h
  · have hnext := (h.next (ahead_ne_nil_of_peek? hs)).leads
    simp only [hs, ht, (C.alike hab).text]
    split
    · exact hnext.trans (delegate hnext.related (hnext.scopes hij) header)
    · have hrecord := hnext.trans (hnext.related.move
        ((C.lockstep s.next.size).skipEither hnext.related.within "class" "struct"))
      exact hrecord.trans (namedType hread hrecord.related (hrecord.scopes hij) (Nat.le_trans hrecord.size_le hn)
        b.text .recordType header)
    · exact hnext.trans (namedType hread hnext.related (hnext.scopes hij) (Nat.le_trans hnext.size_le hn) b.text _
        header)

/-- The reader of type declarations leads, by induction on the tokens ahead. -/
theorem typeDeclaration (h : C.Related s t) (hij : C.scopes s.outline t.outline i j) (header : Header) :
    C.Leads s t (TypeDeclaration.read i header s) (TypeDeclaration.read j header t) := by
  induction hn : s.size using Nat.strongRecOn generalizing s t i j header with
  | ind n ih =>
    rw [TypeDeclaration.read, TypeDeclaration.read]
    refine typeDeclarationAt (n := n) (fun {s' t' i' j'} header h' hij' hsize => ?_) h hij (Nat.le_of_eq hn) header
    rw [if_pos (hn ▸ hsize), if_pos (by rwa [← h'.size_eq, ← h.size_eq, hn])]
    exact ih s'.size hsize h' hij' header rfl

theorem types (n : Nat) : C.Types n TypeDeclaration.read TypeDeclaration.read :=
  fun header h hij _ => typeDeclaration h hij header

end Correspondence

end CSharpStyle
