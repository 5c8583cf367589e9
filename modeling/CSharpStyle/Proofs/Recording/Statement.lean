import CSharpStyle.Proofs.Grammar.StatementForm
import CSharpStyle.Proofs.Recording.Reading

/-!
# Steps through statements

Every reader takes steps that leave the same groups open and the same names held. The names that it reads itself are
held while further tokens are read, such as the value of a local in which a lambda declares locals of its own, and are
recorded then or dropped. The group of the local stays open meanwhile.

* `StatementReader.Keeps`: what is open and held in front of a statement is so behind it.
* `Reading.Run.declarators`: the locals of a declaration are recorded as the members of a group.
* `Reading.Run.methodRest`, `Reading.Run.localDeclarationOr`: the same of methods and locals, if it holds of the
  statements inside.
* `Statement.keeps`: it holds of statements, by induction on the tokens ahead.
-/

namespace CSharpStyle

/-- Steps lead through every statement, and leave open and held what was. -/
structure StatementReader.Keeps (statement : StatementReader) : Prop where
  read {admitted : Declaration → Prop} {base : Stage} {opened : List DeclaratorGroup} {held : List Token} {s : Reading}
    (h : s.Run admitted base opened held) (scope : ScopeId) :
    (statement scope s).Run admitted base opened held

namespace Reading.Run

variable {admitted : Declaration → Prop} {base : Stage} {opened : List DeclaratorGroup} {held : List Token}
  {s s' : Reading} {name : Token}

/-! ### Headers and names -/

theorem header (h : s.Run admitted base opened held) :
    s.header.2.Run admitted base opened held := h.behind (Cursor.suffix_header _) rfl

theorem skipAttributes (h : s.Run admitted base opened held) : (s.move .skipAttributes).Run admitted base opened held :=
  h.move (Cursor.suffix_skipAttributes _)

theorem declareName (h : s.Run admitted base opened (name :: held)) (scope : ScopeId) (role : Role)
    (kind : DeclarationKind) (accessibility : Accessibility) (hkind : kind.isMember = false)
    (hlocal : kind ≠ .localVariable) :
    (s.declareName scope name role kind accessibility).Run admitted base opened held := by
  have hfield : kind ≠ .field := by
    rintro rfl
    cases hkind
  have hapart : (kind == .field || (kind == .localVariable && role == .constant)) = false := by simp [hfield, hlocal]
  exact h.declare scope rfl rfl rfl hapart fun hmember => absurd (hmember.symm.trans hkind) nofun

theorem declareLocal {d : Declarator} (h : s.Run admitted base opened (d.token :: held)) (scope : ScopeId)
    (inForeach : Bool) (apparentness : Apparentness) :
    (s.declareLocal scope d .localVariable inForeach apparentness none).Run admitted base opened held :=
  h.declare scope rfl rfl rfl rfl nofun

theorem declareLocals {names : List Declarator} (h : s.Run admitted base opened (names.map (·.token) ++ held))
    (scope : ScopeId) (inForeach : Bool) (apparentness : Apparentness) :
    (names.foldl (fun s d => s.declareLocal scope d .localVariable inForeach apparentness none) s).Run admitted base
      opened held := by
  induction names generalizing s with
  | nil => exact h
  | cons d names ih => exact ih (h.declareLocal scope inForeach apparentness)

variable {statement : StatementReader} (hstatement : statement.Keeps)

/-! ### Blocks and expressions -/

section Expressions

include hstatement

theorem blockRound (h : s.Run admitted base opened held) (opening : Position) (scope : ScopeId) :
    (Reading.blockRound statement opening scope s).All (Run admitted base opened held)
      (Run admitted base opened held) := by
  rw [Reading.blockRound]
  split
  · exact h.reportAt _ _
  · split
    · exact h.next
    · exact progress (hstatement.read h scope)

theorem block (h : s.Run admitted base opened held) (parent : ScopeId) :
    (Reading.block statement parent s).Run admitted base opened held :=
  rounds_all (fun h => h.blockRound hstatement _ _) stall (h.next.openScope .block none parent)

theorem expressionRound (h : s.Run admitted base opened held) (scope : ScopeId) (stops pending : List String) :
    (Reading.expressionRound statement scope stops (pending, s)).All
      (fun state => state.2.Run admitted base opened held) (Run admitted base opened held) := by
  simp only [Reading.expressionRound]
  split
  · exact h
  · split
    · exact h.block hstatement scope
    · split
      · exact h.next
      · split
        · split
          · exact h
          · exact h.next
        · split
          · exact h
          · split
            · exact h
            · exact h.next

theorem skipExpression (h : s.Run admitted base opened held) (scope : ScopeId) (stops : List String) :
    (Reading.skipExpression statement scope stops s).Run admitted base opened held := by
  have hstart : (([], s) : List String × Reading).2.Run admitted base opened held := h
  refine rounds_all (P := fun state : List String × Reading => state.2.Run admitted base opened held)
    (fun {state} h => ?_) stall hstart
  exact h.expressionRound hstatement scope stops state.1

theorem skipToStatementEnd (h : s.Run admitted base opened held) (scope : ScopeId) :
    (Reading.skipToStatementEnd statement scope s).Run admitted base opened held :=
  (h.skipExpression hstatement scope []).skip ";"

theorem skipValue (h : s.Run admitted base opened held) (scope : ScopeId) :
    (Reading.skipValue statement scope s).Run admitted base opened held := by
  rw [Reading.skipValue]
  split
  · exact (h.eat ‹_›).skipExpression hstatement scope [","]
  · exact h

theorem skipParenthesized (h : s.Run admitted base opened held) (scope : ScopeId) :
    (Reading.skipParenthesized statement scope s).Run admitted base opened held := by
  rw [Reading.skipParenthesized]
  split
  · exact ((h.eat ‹_›).skipExpression hstatement scope []).require ")" _
  · exact h

theorem embedded (h : s.Run admitted base opened held) (scope : ScopeId) :
    (Reading.embedded statement scope s).Run admitted base opened held := by
  rw [Reading.embedded]
  split
  · exact h
  · split
    · exact h
    · exact progress (hstatement.read h scope)

end Expressions

/-! ### Signatures -/

theorem typeParameterRound (h : s.Run admitted base opened held) (scope : ScopeId) :
    (Reading.typeParameterRound scope s).All (Run admitted base opened held) (Run admitted base opened held) := by
  have hvariance : (s.move (·.skipAttributes.skipEither "in" "out")).Run admitted base opened held :=
    h.move ((Cursor.suffix_skipAttributes _).trans (Cursor.suffix_skipEither _ "in" "out"))
  rw [Reading.typeParameterRound]
  split
  · exact (hvariance.report _).skipPast ">"
  · have hdeclared := (hvariance.name ‹_›).declareName scope .typeParameter .typeParameter .unspecified rfl (by decide)
    simp only
    split
    · exact hdeclared.eat ‹_›
    · exact hdeclared.require ">" _

theorem typeParameters (h : s.Run admitted base opened held) (scope : ScopeId) :
    (s.typeParameters scope).Run admitted base opened held := by
  rw [Reading.typeParameters]
  split
  · exact h
  · exact rounds_all (fun h => h.typeParameterRound scope) stall (h.eat ‹_›)

theorem skipConstraints (h : s.Run admitted base opened held) : s.skipConstraints.Run admitted base opened held := by
  rw [Reading.skipConstraints]
  split
  · exact h.skipUntil _
  · exact h

theorem skipConstructorCall (h : s.Run admitted base opened held) :
    s.skipConstructorCall.Run admitted base opened held := by
  rw [Reading.skipConstructorCall]
  split
  · exact h
  · have hcolon := h.eat ‹_›
    split
    · rename_i hword
      rcases Option.or_eq_some_iff.mp hword with hbase | ⟨-, hthis⟩
      · exact (hcolon.eatKeyword hbase).skipGroupAt "("
      · exact (hcolon.eatKeyword hthis).skipGroupAt "("
    · exact hcolon

section Signatures

include hstatement

theorem abandonParameters (h : s.Run admitted base opened held) (scope : ScopeId) (closer : String) :
    (Reading.abandonParameters statement scope closer s).Run admitted base opened held :=
  (h.skipExpression hstatement scope []).skip closer

theorem parameterRound (h : s.Run admitted base opened held) (scope : ScopeId) {list : ParameterList}
    (hkind : list.kind.isMember = false) (hlocal : list.kind ≠ .localVariable) :
    (Reading.parameterRound statement scope list s).All (Run admitted base opened held)
      (Run admitted base opened held) := by
  have hmodifiers : (s.move (·.skipAttributes.skipWhile isParameterModifier)).Run admitted base opened held :=
    h.skipAttributes.skipWhile isParameterModifier
  rw [Reading.parameterRound]
  split
  · exact (hmodifiers.report _).abandonParameters hstatement scope list.closer
  · have htype := hmodifiers.type ‹_›
    split
    · exact (htype.report _).abandonParameters hstatement scope list.closer
    · have hdeclared := (htype.name ‹_›).declareName scope list.role list.kind list.accessibility hkind hlocal
      have hvalue := hdeclared.skipValue hstatement scope
      simp only
      split
      · exact hvalue.eat ‹_›
      · split
        · exact hvalue.eat ‹_›
        · exact (hvalue.report _).abandonParameters hstatement scope list.closer

theorem parameterList (h : s.Run admitted base opened held) (scope : ScopeId) (role : Role) (kind : DeclarationKind)
    (hkind : kind.isMember = false) (hlocal : kind ≠ .localVariable) :
    (Reading.parameterList statement scope role kind s).Run admitted base opened held := by
  rw [Reading.parameterList]
  split
  · exact h
  · simp only
    split
    · exact h.next.eat ‹_›
    · exact rounds_all (fun h => h.parameterRound hstatement scope hkind hlocal) stall h.next

theorem methodBody (h : s.Run admitted base opened held) (method : ScopeId) :
    (Reading.methodBody statement method s).Run admitted base opened held := by
  rw [Reading.methodBody]
  split
  · exact h.block hstatement method
  · split
    · exact (h.eat ‹_›).skipToStatementEnd hstatement method
    · split
      · exact h.eat ‹_›
      · exact h.report _

theorem methodRest (h : s.Run admitted base opened held) (scope : ScopeId) (name : String) :
    (Reading.methodRest statement scope name s).Run admitted base opened held := by
  rw [Reading.methodRest]
  have hopen := h.openScope .method (some name) scope
  have hparameters := hopen.typeParameters (s.openScope .method (some name) scope).1
  simp only
  split
  · have hlist := hparameters.parameterList hstatement (s.openScope .method (some name) scope).1 .parameter .parameter
      rfl (by decide)
    exact hlist.skipConstructorCall.skipConstraints.methodBody hstatement _
  · exact hparameters.report _

end Signatures

/-! ### Local declarations -/

/-- The group of the local declarators that are read. Those of a `for` loop make none. -/
def localGroups (context : LocalContext) (scope : ScopeId) (group : Option Nat) (names : List Token) :
    List DeclaratorGroup :=
  (group.map fun number =>
    ⟨number, scope, if context = .constant then .constant else .localVariable, .localVariable, .unspecified,
      names⟩).toList

/-- The declarators in front of the next one were recorded as the members of their group, if they make one. The next
one follows them. -/
def BetweenDeclarators (admitted : Declaration → Prop) (base : Stage) (opened : List DeclaratorGroup)
    (held : List Token) (context : LocalContext) (scope : ScopeId) (group : Option Nat) (state : Nat × Reading) :
    Prop :=
  ∃ names, state.2.Run admitted base (localGroups context scope group names ++ opened) held ∧ names.length = state.1 ∧
    names.Sublist state.2.cursor.before ∧ state.2.cursor.Joins names

section LocalGroups

variable {context : LocalContext} {scope : ScopeId} {group : Option Nat} {names : List Token}

/-- The next declarator is recorded in its group, if there is one. -/
theorem recordLocal (h : s.Run admitted base (localGroups context scope group names ++ opened) (name :: held))
    (isVar : Bool) (apparentness : Apparentness) (hgroup : group = none → context = .forInitializer)
    (hbehind : (name :: names).Sublist s.cursor.before) (hjoined : Joined s.cursor.before names name) :
    (s.declareLocal scope ⟨name, isVar⟩ (if context = .constant then .constant else .localVariable) false apparentness
      (group.map fun number => ⟨number, names.length⟩)).Run admitted base
        (localGroups context scope group (name :: names) ++ opened) held := by
  cases group with
  | none =>
    rw [hgroup rfl]
    exact Run.declareLocal (d := ⟨name, isVar⟩) h scope false apparentness
  | some number => exact Run.record h ⟨rfl, rfl, rfl, rfl, rfl, rfl⟩ hbehind hjoined nofun

theorem closeLocals (h : s.Run admitted base (localGroups context scope group names ++ opened) held) :
    s.Run admitted base opened held := by
  cases group with
  | none => exact h
  | some number => exact Run.closeGroup h

end LocalGroups

section Locals

include hstatement

theorem initializer (h : s.Run admitted base opened held) (scope : ScopeId) (stops : List String) :
    (Reading.initializer statement scope stops s).2.Run admitted base opened held :=
  h.skipExpression hstatement scope stops

theorem declaratorValue (h : s.Run admitted base opened held) (scope : ScopeId) :
    (Reading.declaratorValue statement scope s).2.Run admitted base opened held := by
  rw [Reading.declaratorValue]
  split
  · exact (h.eat ‹_›).initializer hstatement scope [","]
  · exact h

theorem localFunction (h : s.Run admitted base opened (name :: held)) (scope : ScopeId) :
    (Reading.localFunction statement scope name s).Run admitted base opened held :=
  ((h.declareName scope _ .localFunction _ rfl (by decide)).methodRest hstatement scope _).settle

theorem endDeclaration (h : s.Run admitted base opened held) (context : LocalContext) (scope : ScopeId) :
    (Reading.endDeclaration statement context scope s).Run admitted base opened held := by
  rw [Reading.endDeclaration]
  split
  · exact h
  · split
    · exact h.eat ‹_›
    · exact (h.report _).skipToStatementEnd hstatement scope

/-- The name of a declarator is held while its value is read, and is the next one of its group then. -/
theorem declaratorRound {context : LocalContext} {scope : ScopeId} (isVar : Bool) {group : Option Nat}
    (hgroup : group = none → context = .forInitializer) {state : Nat × Reading}
    (h : BetweenDeclarators admitted base opened held context scope group state) :
    (Reading.declaratorRound statement context scope isVar group state).All
      (BetweenDeclarators admitted base opened held context scope group) (Run admitted base opened held) := by
  obtain ⟨index, s⟩ := state
  obtain ⟨names, h, rfl, hbehind, hjoins⟩ := h
  rw [Reading.declaratorRound]
  split
  · exact ((h.report _).skipToStatementEnd hstatement scope).closeLocals
  · rename_i token behind hname
    have hheld := h.name hname
    have hvalue := hheld.declaratorValue hstatement scope
    have hsuffix := (hheld.start.declaratorValue hstatement scope).suffix
    have hnext : (token :: names).Sublist (Reading.declaratorValue statement scope behind).2.cursor.before := by
      have hread : (token :: names).Sublist behind.cursor.before := before_of_name? hname ▸ hbehind.cons_cons token
      exact hread.trans hsuffix.sublist
    have hjoined := (joined_of_name? hjoins hname).mono hsuffix
    have hdeclared := hvalue.recordLocal isVar (Reading.declaratorValue statement scope behind).1 hgroup hnext hjoined
    simp only
    split
    · rename_i after heat
      exact ⟨token :: names, hdeclared.eat heat, rfl, hnext.trans (hdeclared.start.eat heat).suffix.sublist,
        joins_of_eat? heat (List.cons_ne_nil token names)⟩
    · exact hdeclared.closeLocals.endDeclaration hstatement context scope

theorem declarators (h : s.Run admitted base opened held) (hjoins : s.cursor.Joins []) (context : LocalContext)
    (scope : ScopeId) (isVar : Bool) :
    (Reading.declarators statement context scope isVar s).Run admitted base opened held := by
  have hrounds {s : Reading} {group : Option Nat}
      (h : s.Run admitted base (localGroups context scope group [] ++ opened) held)
      (hgroup : group = none → context = .forInitializer) (hjoins : s.cursor.Joins []) :
      (rounds (·.2.size) (Reading.declaratorRound statement context scope isVar group) (·.2.stall)
        (0, s)).Run admitted base opened held := by
    have hstart : BetweenDeclarators admitted base opened held context scope group (0, s) :=
      ⟨[], h, rfl, List.nil_sublist _, hjoins⟩
    refine rounds_all (declaratorRound hstatement isVar hgroup) (fun h => ?_) hstart
    obtain ⟨names, h, -, -, -⟩ := h
    exact h.closeLocals.stall
  rw [Reading.declarators]
  by_cases hfor : context = .forInitializer
  · simp only [if_pos hfor]
    exact hrounds h (fun _ => hfor) hjoins
  · simp only [if_neg hfor]
    exact hrounds (h.openGroup scope _ _ _) nofun hjoins

theorem deconstruction {names : List Declarator} (h : s.Run admitted base opened (names.map (·.token) ++ held))
    (scope : ScopeId) :
    (Reading.deconstruction statement scope names s).Run admitted base opened held :=
  ((h.initializer hstatement scope []).declareLocals scope false _).skip ";"

theorem localDeclaration {beginning : LocalBeginning} (h : s.Run admitted base opened (beginning.tokens ++ held))
    (hjoins : ∀ isVar, beginning = .type isVar → s.cursor.Joins []) (context : LocalContext) (scope : ScopeId) :
    (Reading.localDeclaration statement context scope beginning s).Run admitted base opened held := by
  cases beginning with
  | pattern names => exact h.deconstruction hstatement scope
  | type isVar => exact Run.declarators hstatement h (hjoins isVar rfl) context scope isVar

theorem localDeclarationOr (h : s.Run admitted base opened held) (context : LocalContext) (scope : ScopeId)
    {otherwise : Reading → Reading} (hotherwise : (otherwise s).Run admitted base opened held) :
    (Reading.localDeclarationOr statement context scope otherwise s).Run admitted base opened held := by
  rw [Reading.localDeclarationOr]
  split
  · rename_i beginning cursor hbeginning
    have hbehind : Run admitted base opened (beginning.tokens ++ held) { s with cursor } :=
      h.consume (Cursor.suffix_of_localDeclaration? hbeginning) (·.localDeclaration? hbeginning)
    refine hbehind.localDeclaration hstatement (fun isVar heq => ?_) context scope
    subst heq
    exact Cursor.joins_of_localDeclaration? hbeginning
  · exact hotherwise

end Locals

/-! ### Statements -/

theorem iteration (h : s.Run admitted base opened held) (scope : ScopeId) :
    (s.iteration scope).Run admitted base opened held := by
  have hsuffix := Cursor.Covers.suffix_iterationVariables s.cursor
  rw [Reading.iteration]
  cases hvariables : iterationVariables s.cursor with
  | mk found cursor =>
    rw [hvariables] at hsuffix
    have hbehind : Run admitted base opened held { s with cursor } := h.behind hsuffix rfl
    cases found with
    | none => exact hbehind.report _
    | some names =>
      have hheld : Run admitted base opened (names.map (·.token) ++ held) { s with cursor } :=
        h.consume hsuffix (·.iterationVariables hvariables)
      cases hsees : Reading.seesKeyword { s with cursor } "in" with
      | false =>
        simp only [hsees]
        exact hbehind.report _
      | true =>
        simp only [hsees]
        exact hheld.declareLocals scope true .notApplicable

section Statements

include hstatement

theorem switchRound (h : s.Run admitted base opened held) (opening : Position) (body : ScopeId) :
    (Reading.switchRound statement opening body s).All (Run admitted base opened held)
      (Run admitted base opened held) := by
  rw [Reading.switchRound]
  split
  · exact h.reportAt _ _
  · split
    · exact h.next
    · split
      · exact (h.next.skipExpression hstatement body [":"]).skip ":"
      · split
        · exact h.next.next
        · exact progress (hstatement.read h body)

theorem switchStatement (h : s.Run admitted base opened held) (scope : ScopeId) :
    (Reading.switchStatement statement scope s).Run admitted base opened held := by
  have hvalue := h.next.skipParenthesized hstatement scope
  rw [Reading.switchStatement]
  simp only
  split
  · exact rounds_all (fun h => h.switchRound hstatement _ _) stall (hvalue.next.openScope .block none scope)
  · exact hvalue.report _

theorem forInitializer (h : s.Run admitted base opened held) (scope : ScopeId) :
    (Reading.forInitializer statement scope s).Run admitted base opened held := by
  rw [Reading.forInitializer]
  split
  · exact h.eat ‹_›
  · exact h.localDeclarationOr hstatement .forInitializer scope (h.skipToStatementEnd hstatement scope)

theorem forStatement (h : s.Run admitted base opened held) (scope : ScopeId) :
    (Reading.forStatement statement scope s).Run admitted base opened held := by
  rw [Reading.forStatement]
  split
  · exact h.next.report _
  · rename_i behind heat
    let inner := (behind.openScope .block none scope).1
    have hopen := (h.next.eat heat).openScope .block none scope
    have hcondition := (hopen.forInitializer hstatement inner).skipToStatementEnd hstatement inner
    exact ((hcondition.skipExpression hstatement inner []).require ")" _).embedded hstatement inner

theorem foreachStatement (h : s.Run admitted base opened held) (scope : ScopeId) :
    (Reading.foreachStatement statement scope s).Run admitted base opened held := by
  rw [Reading.foreachStatement]
  split
  · exact h.next.report _
  · rename_i behind heat
    let inner := (behind.openScope .block none scope).1
    have hvariables := ((h.next.eat heat).openScope .block none scope).iteration inner
    exact ((hvariables.skipExpression hstatement inner []).require ")" _).embedded hstatement inner

theorem usingStatement (h : s.Run admitted base opened held) (scope : ScopeId) :
    (Reading.usingStatement statement scope s).Run admitted base opened held := by
  rw [Reading.usingStatement]
  split
  · rename_i behind heat
    let resource := (behind.openScope .block none scope).1
    have hopen := (h.next.eat heat).openScope .block none scope
    have hdeclared := hopen.localDeclarationOr hstatement .usingResource resource
      (hopen.skipExpression hstatement resource [])
    exact (hdeclared.require ")" _).embedded hstatement resource
  · exact h.next.localDeclarationOr hstatement .statement scope (h.next.skipToStatementEnd hstatement scope)

theorem constantStatement (h : s.Run admitted base opened held) (scope : ScopeId) :
    (Reading.constantStatement statement scope s).Run admitted base opened held :=
  h.next.localDeclarationOr hstatement .constant scope ((h.next.report _).skipToStatementEnd hstatement scope)

theorem declarationOrExpression (h : s.Run admitted base opened held) (scope : ScopeId) :
    (Reading.declarationOrExpression statement scope s).Run admitted base opened held := by
  rw [Reading.declarationOrExpression]
  split
  · rename_i name cursor hname
    have hread {consumed : List Token} (h : s.cursor.Covers consumed) : cursor.Covers ([name] ++ consumed) :=
      h.localFunctionName? hname
    exact Run.localFunction hstatement (h.consume (Cursor.suffix_of_localFunctionName? hname) hread) scope
  · exact h.localDeclarationOr hstatement .statement scope (h.skipToStatementEnd hstatement scope)

theorem keywordStatement (h : s.Run admitted base opened held) (word : String) (scope : ScopeId) :
    (Reading.keywordStatement statement word scope s).Run admitted base opened held := by
  have hcondition := h.next.skipParenthesized hstatement scope
  have hbody := h.next.embedded hstatement scope
  have hend := h.skipToStatementEnd hstatement scope
  have hdeclaration := h.declarationOrExpression hstatement scope
  rw [Reading.keywordStatement_eq_read]
  cases StatementForm.ofKeyword word with
  | headed => exact hcondition.embedded hstatement scope
  | bare => exact hbody
  | context =>
    rw [StatementForm.read]
    split
    · exact h.next.block hstatement scope
    · exact hdeclaration
  | doLoop =>
    -- The `while` of the loop stands behind its body.
    rw [StatementForm.read]
    cases hwhile : (Reading.embedded statement scope s.next).eatKeyword? "while" with
    | none => exact hbody
    | some behind => exact (hbody.eatKeyword hwhile).skipToStatementEnd hstatement scope
  | handler =>
    -- A `catch` may be guarded by a second parenthesized expression.
    refine Run.embedded hstatement ?_ scope
    cases hwhen : (Reading.skipParenthesized statement scope s.next).eatKeyword? "when" with
    | none => exact hcondition
    | some behind => exact (hcondition.eatKeyword hwhen).skipParenthesized hstatement scope
  | switch => exact h.switchStatement hstatement scope
  | forLoop => exact h.forStatement hstatement scope
  | foreachLoop => exact h.foreachStatement hstatement scope
  | resource => exact h.usingStatement hstatement scope
  | constant => exact h.constantStatement hstatement scope
  | await =>
    rw [StatementForm.read]
    split
    · exact h.next.foreachStatement hstatement scope
    · split
      · exact h.next.usingStatement hstatement scope
      · exact hend
  | jump => exact hend
  | declarationOrExpression => exact hdeclaration

theorem statementAt (h : s.Run admitted base opened held) (scope : ScopeId) :
    (Reading.statementAt statement scope s).Run admitted base opened held := by
  have hdeclaration := h.declarationOrExpression hstatement scope
  rw [Reading.statementAt]
  split
  · exact h
  · split
    · exact h.keywordStatement hstatement _ scope
    · split
      · exact h.block hstatement scope
      · split
        · exact h.next
        · exact hdeclaration
    · split
      · exact h.next.next
      · exact hdeclaration
    · exact hdeclaration

end Statements

end Reading.Run

/-- Steps lead through statements. The induction is on the tokens ahead: a statement inside another one has fewer. -/
theorem Statement.keeps : StatementReader.Keeps Statement.read where
  read {admitted base opened held s} h scope := by
    induction hsize : s.size using Nat.strongRecOn generalizing admitted base opened held s scope with
    | ind n ih =>
      rw [Statement.read]
      refine h.statementAt ⟨fun {admitted base opened held t} ht inner => ?_⟩ scope
      by_cases hlt : t.size < s.size
      · rw [if_pos hlt]
        exact ih t.size (hsize ▸ hlt) ht inner rfl
      · rw [if_neg hlt]
        exact ht.stall

end CSharpStyle
