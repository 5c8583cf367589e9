import CSharpStyle.Proofs.Braces.Reading
import CSharpStyle.Proofs.Grammar.StatementForm

/-!
# Braces in statements

A statement ends in the body that it began in, and a block behind the brace that closes it. An expression keeps the
closers of the brackets that it has opened; they are the innermost of those that are open at all, because brackets are
closed by their kind.

* `Reading.Within`: where a reading stands inside an expression.
* `Reading.Stands.block`: a block is read to the brace that closes it.
* `Statement.stays`: statements stay in their body, by induction on the tokens ahead.
-/

namespace CSharpStyle

/-- A statement ends in the body that it began in. -/
structure StatementReader.Stays (statement : StatementReader) : Prop where
  read {floor : Floor} {s : Reading} (h : s.Level floor) (scope : ScopeId) :
    (statement scope s).Level floor

namespace Reading

variable {pending : List String} {floor : Floor} {s s' : Reading} {t : Token}
variable {statement : StatementReader} (hstatement : statement.Stays)

/-! ### Blocks and expressions -/

section Expressions

include hstatement

theorem Level.blockRound (h : s.Level (.inside pending)) (opening : Position) (scope : ScopeId) :
    (Reading.blockRound statement opening scope s).All (Level (.inside pending)) (Closed pending) := by
  rw [Reading.blockRound]
  split
  · exact (Reported.reportAt _ _ _).closed
  · split
    · exact h.leave ‹_› ‹_›
    · exact Level.progress (hstatement.read h scope)

theorem Stands.block (h : s.Stands pending) (hsees : s.sees "\x7b" = true) (parent : ScopeId) :
    (Reading.block statement parent s).Closed pending :=
  rounds_all (fun h => h.blockRound hstatement _ _) (fun _ => (Reported.stall _).closed)
    ((h.enter hsees).openScope .block none parent)

theorem Level.block (h : s.Level floor) (hsees : s.sees "\x7b" = true) (parent : ScopeId) :
    (Reading.block statement parent s).Level floor := by
  obtain ⟨t, ht, -⟩ := Cursor.exists_of_sees hsees
  obtain ⟨inner, hinner, hstands⟩ := h.stands ht
  exact (hstands.block hstatement hsees parent).stands.level hinner

end Expressions

/-- The expression has opened the brackets that the closers in the first component close, in brackets of the body. -/
def Within (floor : Floor) (state : List String × Reading) : Prop :=
  (∃ inner, "\x7d" ∉ inner ∧ state.2.Stands (state.1 ++ (inner ++ floor.closers))) ∨
    state.2.cursor.AtEnd

theorem Level.within (h : s.Level floor) : Within floor ([], s) := by
  rcases h with hreported | ⟨inner, hinner, hstands⟩ | hend
  · exact .inl ⟨[], List.not_mem_nil, .inl hreported⟩
  · exact .inl ⟨inner, hinner, .inr hstands⟩
  · exact .inr hend

theorem Within.stands {state : List String × Reading} (h : Within floor state)
    (hpeek : state.2.peek? = some t) :
    ∃ inner, "\x7d" ∉ inner ∧ state.2.Stands (state.1 ++ (inner ++ floor.closers)) := by
  refine h.resolve_right fun hend => ?_
  simp [Reading.peek?, Cursor.peek?, hend.1] at hpeek

/-- Brackets that the expression has not closed are brackets of the body, if there are no braces among them. -/
theorem Within.level {state : List String × Reading} (h : Within floor state)
    (hbraces : state.2.peek? ≠ none → "\x7d" ∉ state.1) : state.2.Level floor := by
  rcases h with ⟨inner, hinner, hreported | hstands⟩ | hend
  · exact hreported.level
  · refine .inr ?_
    cases hpeek : state.2.peek? with
    | none =>
      rw [Reading.peek?, Cursor.peek?, List.head?_eq_none_iff] at hpeek
      exact .inr ⟨hpeek, _, hstands⟩
    | some t =>
      refine .inl ⟨state.1 ++ inner, fun hmem => ?_, by rwa [List.append_assoc]⟩
      exact (List.mem_append.mp hmem).elim (hbraces (by simp [hpeek])) hinner
  · exact .inr (.inr hend)

section Expressions

include hstatement

theorem Within.expressionRound {own : List String} (h : Within floor (own, s)) (scope : ScopeId)
    (stops : List String) :
    (Reading.expressionRound statement scope stops (own, s)).All (Within floor) (Level floor) := by
  simp only [Reading.expressionRound]
  split
  · rename_i hpeek
    exact h.level fun hne => absurd hpeek hne
  · rename_i t hpeek
    obtain ⟨inner, hinner, hstands⟩ := h.stands hpeek
    split
    · -- A block behind an arrow is closed where it is read.
      rename_i harrow
      have hsees : s.sees "\x7b" = true := by
        rw [Reading.sees, Cursor.sees_of_peek? hpeek]
        exact (Bool.and_eq_true_iff.mp harrow).1
      exact .inl ⟨inner, hinner, (hstands.block hstatement hsees scope).stands⟩
    · split
      · rename_i hopen
        have hnext := hstands.next hpeek fun hclose => absurd hclose (Token.not_closing_of_isOpener hopen)
        rw [Token.awaited_of_isOpener hopen] at hnext
        exact .inl ⟨inner, hinner, hnext⟩
      · rename_i hopen
        split
        · rename_i hclose
          cases own with
          | nil => exact h.level fun _ => List.not_mem_nil
          | cons closer own =>
            have hnext := hstands.next hpeek fun _ => List.cons_ne_nil _ _
            rw [Token.awaited_of_isCloser hclose] at hnext
            exact .inl ⟨inner, hinner, hnext⟩
        · rename_i hclose
          split
          · rename_i hsemicolon
            refine h.level fun _ hmem => ?_
            simp [hmem] at hsemicolon
          · split
            · rename_i hstop
              have hown : own = [] := by
                rw [Bool.and_assoc, Bool.and_eq_true, List.isEmpty_iff] at hstop
                exact hstop.1
              exact h.level fun _ => hown ▸ List.not_mem_nil
            · have hnext := hstands.next hpeek fun hbrace => absurd (Token.isCloser_of_brace hbrace) hclose
              rw [Token.awaited_of_other (Bool.eq_false_iff.mpr hopen) (Bool.eq_false_iff.mpr hclose)] at hnext
              exact .inl ⟨inner, hinner, hnext⟩

namespace Level

theorem skipExpression (h : s.Level floor) (scope : ScopeId) (stops : List String) :
    (Reading.skipExpression statement scope stops s).Level floor := by
  refine rounds_all (P := Within floor) (fun {state} h => ?_) (fun _ => (Reported.stall _).level) h.within
  exact Within.expressionRound hstatement h scope stops

theorem skipToStatementEnd (h : s.Level floor) (scope : ScopeId) :
    (Reading.skipToStatementEnd statement scope s).Level floor :=
  (h.skipExpression hstatement scope []).skip (by decide)

theorem skipValue (h : s.Level floor) (scope : ScopeId) :
    (Reading.skipValue statement scope s).Level floor := by
  rw [Reading.skipValue]
  split
  · exact (h.eat ‹_› (by decide)).skipExpression hstatement scope [","]
  · exact h

theorem skipParenthesized (h : s.Level floor) (scope : ScopeId) :
    (Reading.skipParenthesized statement scope s).Level floor := by
  rw [Reading.skipParenthesized]
  split
  · exact ((h.eat ‹_› (by decide)).skipExpression hstatement scope []).require (by decide) _
  · exact h

theorem embedded (h : s.Level floor) (scope : ScopeId) :
    (Reading.embedded statement scope s).Level floor := by
  rw [Reading.embedded]
  split
  · exact h
  · split
    · exact h
    · exact progress (hstatement.read h scope)

end Level

end Expressions

/-! ### Signatures -/

namespace Level

theorem declareName (h : s.Level floor) (scope : ScopeId) (name : Token) (role : Role) (kind : DeclarationKind)
    (accessibility : Accessibility) : (s.declareName scope name role kind accessibility).Level floor := h

theorem declareLocal (h : s.Level floor) (scope : ScopeId) (d : Declarator) (role : Role) (inForeach : Bool)
    (apparentness : Apparentness) (group : Option GroupPlace) :
    (s.declareLocal scope d role inForeach apparentness group).Level floor := h

theorem declareLocals (h : s.Level floor) (names : List Declarator) (scope : ScopeId) (role : Role)
    (inForeach : Bool) (apparentness : Apparentness) :
    (names.foldl (fun s d => s.declareLocal scope d role inForeach apparentness none) s).Level floor := by
  induction names generalizing s with
  | nil => exact h
  | cons d names ih => exact ih (h.declareLocal scope d role inForeach apparentness none)

theorem typeParameterRound (h : s.Level floor) (scope : ScopeId) :
    (Reading.typeParameterRound scope s).All (Level floor) (Level floor) := by
  have hvariance : (s.move (·.skipAttributes.skipEither "in" "out")).Level floor :=
    h.skipAttributes.skipEither "in" "out"
  rw [Reading.typeParameterRound]
  split
  · exact ((Reported.report _ _).move _).level
  · rename_i name behind hname
    have hdeclared := (hvariance.name hname).declareName scope name .typeParameter .typeParameter .unspecified
    simp only
    split
    · exact hdeclared.eat ‹_› (by decide)
    · exact hdeclared.require (by decide) _

theorem typeParameters (h : s.Level floor) (scope : ScopeId) :
    (s.typeParameters scope).Level floor := by
  rw [Reading.typeParameters]
  split
  · exact h
  · exact rounds_all (fun h => h.typeParameterRound scope) (fun _ => (Reported.stall _).level)
      (h.eat ‹_› (by decide))

theorem skipConstraints (h : s.Level floor) : s.skipConstraints.Level floor := by
  rw [Reading.skipConstraints]
  split
  · refine h.skipUntil (fun hab => by rw [hab.kind, hab.text]) fun {a} ha => ?_
    obtain ⟨hkind, htext⟩ := Token.eq_of_isWall ha
    rcases htext with htext | htext | htext <;> simp [hkind, htext]
  · exact h

theorem skipConstructorCall (h : s.Level floor) : s.skipConstructorCall.Level floor := by
  rw [Reading.skipConstructorCall]
  split
  · exact h
  · have hcolon := h.eat ‹_› (by decide)
    split
    · rename_i hword
      rcases Option.or_eq_some_iff.mp hword with hbase | ⟨-, hthis⟩
      · exact (hcolon.eatKeyword hbase).skipGroupAt (by decide)
      · exact (hcolon.eatKeyword hthis).skipGroupAt (by decide)
    · exact hcolon

theorem parameterModifiers (h : s.Level floor) :
    (s.move (·.skipAttributes.skipWhile isParameterModifier)).Level floor := by
  refine h.skipAttributes.skipWhile_of_forall fun {t} ht => Token.not_isBrace_of_kind fun hkind => ?_
  simp [isParameterModifier, Token.isIdentifier, hkind] at ht

section Signatures

include hstatement

/-- What remains of a parameter list is skipped after a report. -/
theorem abandonParameters (h : s.Level floor) (scope : ScopeId) {closer : String}
    (hcloser : closer ∉ ["\x7b", "\x7d"]) : (Reading.abandonParameters statement scope closer s).Level floor :=
  (h.skipExpression hstatement scope []).skip hcloser

theorem parameterRound (h : s.Level floor) (scope : ScopeId) {list : ParameterList}
    (hcloser : list.closer ∉ ["\x7b", "\x7d"]) :
    (Reading.parameterRound statement scope list s).All (Level floor) (Level floor) := by
  have hmodifiers := h.parameterModifiers
  have habandoned (s : Reading) (defect : Defect) :
      (Reading.abandonParameters statement scope list.closer (s.report defect)).Level floor :=
    (Reported.report s defect).level.abandonParameters hstatement scope hcloser
  rw [Reading.parameterRound]
  split
  · exact habandoned _ _
  · have htype := hmodifiers.type ‹_›
    split
    · exact habandoned _ _
    · rename_i name behind hname
      have hdeclared := (htype.name hname).declareName scope name list.role list.kind list.accessibility
      have hvalue := hdeclared.skipValue hstatement scope
      simp only
      split
      · exact hvalue.eat ‹_› (by decide)
      · split
        · exact hvalue.eat ‹_› hcloser
        · exact habandoned _ _

theorem parameterList (h : s.Level floor) (hsees : s.sees "(" = true ∨ s.sees "[" = true) (scope : ScopeId)
    (role : Role) (kind : DeclarationKind) :
    (Reading.parameterList statement scope role kind s).Level floor := by
  have hnext : s.next.Level floor :=
    hsees.elim (h.next_of_sees · (by decide)) (h.next_of_sees · (by decide))
  rw [Reading.parameterList]
  split
  · exact h
  · rename_i opener hopener
    have hcloser : closing opener.text ∉ ["\x7b", "\x7d"] := by
      rcases hsees with hsees | hsees <;>
        · rw [Reading.sees, Cursor.sees_of_peek? hopener] at hsees
          rw [(Token.eq_of_isPunctuation hsees).2]
          decide
    simp only
    split
    · exact hnext.eat ‹_› hcloser
    · exact rounds_all (fun h => h.parameterRound hstatement scope hcloser) (fun _ => (Reported.stall _).level) hnext

theorem methodBody (h : s.Level floor) (method : ScopeId) :
    (Reading.methodBody statement method s).Level floor := by
  rw [Reading.methodBody]
  split
  · exact h.block hstatement ‹_› method
  · split
    · exact (h.eat ‹_› (by decide)).skipToStatementEnd hstatement method
    · split
      · exact h.eat ‹_› (by decide)
      · exact Reported.report _ _

theorem methodRest (h : s.Level floor) (scope : ScopeId) (name : String) :
    (Reading.methodRest statement scope name s).Level floor := by
  rw [Reading.methodRest]
  have hparameters := (h.openScope .method (some name) scope).typeParameters
    (s.openScope .method (some name) scope).1
  simp only
  split
  · have hlist := hparameters.parameterList hstatement (.inl ‹_›) (s.openScope .method (some name) scope).1
      .parameter .parameter
    exact hlist.skipConstructorCall.skipConstraints.methodBody hstatement _
  · exact Reported.report _ _

end Signatures

/-! ### Local declarations -/

section Locals

include hstatement

theorem initializer (h : s.Level floor) (scope : ScopeId) (stops : List String) :
    (Reading.initializer statement scope stops s).2.Level floor := h.skipExpression hstatement scope stops

theorem declaratorValue (h : s.Level floor) (scope : ScopeId) :
    (Reading.declaratorValue statement scope s).2.Level floor := by
  rw [Reading.declaratorValue]
  split
  · exact (h.eat ‹_› (by decide)).initializer hstatement scope [","]
  · exact h

theorem localFunction (h : s.Level floor) (scope : ScopeId) (name : Token) :
    (Reading.localFunction statement scope name s).Level floor :=
  ((h.declareName scope name .privateMember .localFunction .isPrivate).methodRest hstatement scope _).settle

theorem endDeclaration (h : s.Level floor) (context : LocalContext) (scope : ScopeId) :
    (Reading.endDeclaration statement context scope s).Level floor := by
  rw [Reading.endDeclaration]
  split
  · exact h
  · split
    · exact h.eat ‹_› (by decide)
    · exact (Reported.report _ _).level.skipToStatementEnd hstatement scope

theorem declaratorRound (h : s.Level floor) (context : LocalContext) (scope : ScopeId) (isVar : Bool)
    (group : Option Nat) (index : Nat) :
    (Reading.declaratorRound statement context scope isVar group (index, s)).All (fun state => state.2.Level floor)
      (Level floor) := by
  rw [Reading.declaratorRound]
  split
  · exact (Reported.report _ _).level.skipToStatementEnd hstatement scope
  · rename_i token behind hname
    have hvalue := (h.name hname).declaratorValue hstatement scope
    have hdeclared := hvalue.declareLocal scope ⟨token, isVar⟩
      (if context = .constant then .constant else .localVariable) false
      (Reading.declaratorValue statement scope behind).1 (group.map fun group => { group, index })
    simp only
    split
    · exact hdeclared.eat ‹_› (by decide)
    · exact hdeclared.endDeclaration hstatement context scope

theorem declarators (h : s.Level floor) (context : LocalContext) (scope : ScopeId) (isVar : Bool) :
    (Reading.declarators statement context scope isVar s).Level floor := by
  have hrounds {s : Reading} (h : s.Level floor) (group : Option Nat) :
      (rounds (·.2.size) (Reading.declaratorRound statement context scope isVar group) (·.2.stall)
        (0, s)).Level floor := by
    have hstart : ((0, s) : Nat × Reading).2.Level floor := h
    refine rounds_all (P := fun state : Nat × Reading => state.2.Level floor) (fun {state} h => ?_)
      (fun _ => (Reported.stall _).level) hstart
    exact h.declaratorRound hstatement context scope isVar group state.1
  rw [Reading.declarators]
  by_cases hfor : context = .forInitializer
  · simp only [if_pos hfor]
    exact hrounds h none
  · simp only [if_neg hfor]
    exact hrounds h.newGroup _

theorem localDeclaration (h : s.Level floor) (context : LocalContext) (scope : ScopeId)
    (beginning : LocalBeginning) :
    (Reading.localDeclaration statement context scope beginning s).Level floor := by
  cases beginning with
  | pattern names =>
    exact ((h.initializer hstatement scope []).declareLocals names scope .localVariable false _).skip (by decide)
  | type isVar => exact h.declarators hstatement context scope isVar

theorem localDeclarationOr (h : s.Level floor) (context : LocalContext) (scope : ScopeId)
    {otherwise : Reading → Reading} (hotherwise : (otherwise s).Level floor) :
    (Reading.localDeclarationOr statement context scope otherwise s).Level floor := by
  rw [Reading.localDeclarationOr]
  split
  · rename_i beginning cursor hbeginning
    have hbehind : Level floor { s with cursor } :=
      h.imp_right fun hlevel => (Cursor.lockstep_level floor).keeps_localDeclaration? hlevel hbeginning
    exact hbehind.localDeclaration hstatement context scope beginning
  · exact hotherwise

end Locals

/-! ### Statements -/

theorem iteration (h : s.Level floor) (scope : ScopeId) : (s.iteration scope).Level floor := by
  have hbehind : Level floor { s with cursor := (iterationVariables s.cursor).2 } :=
    h.imp_right fun hlevel => ((Cursor.lockstep_level floor).iterationVariables ⟨rfl, hlevel⟩).2.2
  rw [Reading.iteration]
  simp only
  split
  · exact hbehind.declareLocals _ scope .localVariable true .notApplicable
  · exact (Reported.report _ _).level

section Statements

include hstatement

theorem switchRound (h : s.Level (.inside pending)) (opening : Position) (body : ScopeId) :
    (Reading.switchRound statement opening body s).All (Level (.inside pending)) (Closed pending) := by
  rw [Reading.switchRound]
  split
  · exact (Reported.reportAt _ _ _).closed
  · split
    · exact h.leave ‹_› ‹_›
    · split
      · rename_i hcase
        have hlabel := h.next ‹_› (Token.not_isBrace_of_isKeyword hcase)
        exact (hlabel.skipExpression hstatement body [":"]).skip (by decide)
      · split
        · rename_i hdefault
          obtain ⟨hword, hcolon⟩ := Bool.and_eq_true_iff.mp hdefault
          have hlabel := h.next ‹_› (Token.not_isBrace_of_isKeyword hword)
          exact hlabel.next_of_sees hcolon (by decide)
        · exact progress (hstatement.read h body)

theorem switchStatement (h : s.next.Level floor) (scope : ScopeId) :
    (Reading.switchStatement statement scope s).Level floor := by
  have hvalue := h.skipParenthesized hstatement scope
  rw [Reading.switchStatement]
  simp only
  split
  · rename_i hsees
    obtain ⟨t, ht, -⟩ := Cursor.exists_of_sees hsees
    obtain ⟨inner, hinner, hstands⟩ := hvalue.stands ht
    have hinside := (hstands.enter hsees).openScope .block none scope
    refine (Closed.stands ?_).level hinner
    exact rounds_all (fun h => h.switchRound hstatement _ _) (fun _ => (Reported.stall _).closed) hinside
  · exact (Reported.report _ _).level

theorem forInitializer (h : s.Level floor) (scope : ScopeId) :
    (Reading.forInitializer statement scope s).Level floor := by
  rw [Reading.forInitializer]
  split
  · exact h.eat ‹_› (by decide)
  · exact h.localDeclarationOr hstatement .forInitializer scope (h.skipToStatementEnd hstatement scope)

theorem forStatement (h : s.next.Level floor) (scope : ScopeId) :
    (Reading.forStatement statement scope s).Level floor := by
  rw [Reading.forStatement]
  split
  · exact (Reported.report _ _).level
  · rename_i behind heat
    let inner := (behind.openScope .block none scope).1
    have hopen := (h.eat heat (by decide)).openScope .block none scope
    have hcondition := (hopen.forInitializer hstatement inner).skipToStatementEnd hstatement inner
    exact ((hcondition.skipExpression hstatement inner []).require (by decide) _).embedded hstatement inner

theorem foreachStatement (h : s.next.Level floor) (scope : ScopeId) :
    (Reading.foreachStatement statement scope s).Level floor := by
  rw [Reading.foreachStatement]
  split
  · exact (Reported.report _ _).level
  · rename_i behind heat
    let inner := (behind.openScope .block none scope).1
    have hvariables := ((h.eat heat (by decide)).openScope .block none scope).iteration inner
    exact ((hvariables.skipExpression hstatement inner []).require (by decide) _).embedded hstatement inner

theorem usingStatement (h : s.next.Level floor) (scope : ScopeId) :
    (Reading.usingStatement statement scope s).Level floor := by
  rw [Reading.usingStatement]
  split
  · rename_i behind heat
    let resource := (behind.openScope .block none scope).1
    have hopen := (h.eat heat (by decide)).openScope .block none scope
    have hdeclared := hopen.localDeclarationOr hstatement .usingResource resource
      (hopen.skipExpression hstatement resource [])
    exact (hdeclared.require (by decide) _).embedded hstatement resource
  · exact h.localDeclarationOr hstatement .statement scope (h.skipToStatementEnd hstatement scope)

theorem constantStatement (h : s.next.Level floor) (scope : ScopeId) :
    (Reading.constantStatement statement scope s).Level floor :=
  h.localDeclarationOr hstatement .constant scope
    ((Reported.report _ _).level.skipToStatementEnd hstatement scope)

theorem declarationOrExpression (h : s.Level floor) (scope : ScopeId) :
    (Reading.declarationOrExpression statement scope s).Level floor := by
  rw [Reading.declarationOrExpression]
  split
  · rename_i name cursor hname
    have hbehind : Level floor { s with cursor } :=
      h.imp_right fun hlevel => (Cursor.lockstep_level floor).keeps_localFunctionName? hlevel hname
    exact hbehind.localFunction hstatement scope name
  · exact h.localDeclarationOr hstatement .statement scope (h.skipToStatementEnd hstatement scope)

/-- A statement whose first token is a keyword; the keyword opens and closes no brace. -/
theorem keywordStatement (h : s.Level floor) (hnext : s.next.Level floor) (word : String)
    (scope : ScopeId) : (Reading.keywordStatement statement word scope s).Level floor := by
  have hcondition := hnext.skipParenthesized hstatement scope
  have hbody := hnext.embedded hstatement scope
  have hend := h.skipToStatementEnd hstatement scope
  have hdeclaration := h.declarationOrExpression hstatement scope
  rw [Reading.keywordStatement_eq_read]
  cases StatementForm.ofKeyword word with
  | headed => exact hcondition.embedded hstatement scope
  | bare => exact hbody
  | context =>
    rw [StatementForm.read]
    split
    · rename_i hsees
      exact hnext.block hstatement hsees scope
    · exact hdeclaration
  | doLoop =>
    -- The `while` of the loop stands behind its body.
    rw [StatementForm.read]
    cases hwhile : (Reading.embedded statement scope s.next).eatKeyword? "while" with
    | none => exact hbody
    | some behind => exact (hbody.eatKeyword hwhile).skipToStatementEnd hstatement scope
  | handler =>
    -- A `catch` may be guarded by a second parenthesized expression.
    refine Level.embedded hstatement ?_ scope
    cases hwhen : (Reading.skipParenthesized statement scope s.next).eatKeyword? "when" with
    | none => exact hcondition
    | some behind => exact (hcondition.eatKeyword hwhen).skipParenthesized hstatement scope
  | switch => exact hnext.switchStatement hstatement scope
  | forLoop => exact hnext.forStatement hstatement scope
  | foreachLoop => exact hnext.foreachStatement hstatement scope
  | resource => exact hnext.usingStatement hstatement scope
  | constant => exact hnext.constantStatement hstatement scope
  | await =>
    rw [StatementForm.read]
    split
    · rename_i hsees
      exact (hnext.next_of_seesKeyword hsees).foreachStatement hstatement scope
    · split
      · rename_i hsees
        exact (hnext.next_of_seesKeyword hsees).usingStatement hstatement scope
      · exact hend
  | jump => exact hend
  | declarationOrExpression => exact hdeclaration

theorem statementAt (h : s.Level floor) (scope : ScopeId) :
    (Reading.statementAt statement scope s).Level floor := by
  have hdeclaration := h.declarationOrExpression hstatement scope
  rw [Reading.statementAt]
  split
  · exact h
  · rename_i t hpeek
    split
    · rename_i hkind
      exact h.keywordStatement hstatement (h.next hpeek (Token.not_isBrace_of_kind (by simp [hkind]))) _ scope
    · rename_i hkind
      have hmark (mark : String) (htext : (t.text == mark) = true) : t.isPunctuation mark = true := by
        rw [Token.isPunctuation, hkind, htext]
        rfl
      split
      · rename_i htext
        have hsees : s.sees "\x7b" = true := by
          rw [Reading.sees, Cursor.sees_of_peek? hpeek]
          exact hmark _ htext
        exact h.block hstatement hsees scope
      · split
        · rename_i htext
          exact h.next hpeek (Token.not_isBrace_of_isPunctuation (hmark _ htext) (by decide))
        · exact hdeclaration
    · rename_i hkind
      split
      · rename_i hcolon
        exact (h.next hpeek (Token.not_isBrace_of_kind (by simp [hkind]))).next_of_sees hcolon (by decide)
      · exact hdeclaration
    · exact hdeclaration

end Statements

end Level

end Reading

/-- Statements stay in their body. The induction is on the tokens ahead: a statement inside another one has fewer. -/
theorem Statement.stays : StatementReader.Stays Statement.read where
  read {floor s} h scope := by
    induction hsize : s.size using Nat.strongRecOn generalizing floor s scope with
    | ind n ih =>
      rw [Statement.read]
      refine h.statementAt ⟨fun {floor t} ht inner => ?_⟩ scope
      by_cases hlt : t.size < s.size
      · rw [if_pos hlt]
        exact ih t.size (hsize ▸ hlt) ht inner rfl
      · rw [if_neg hlt]
        exact (Reading.Reported.stall t).level

end CSharpStyle
