import CSharpStyle.Proofs.CoreGrammar.Clean

/-!
# Statements of core programs

In front of each statement the reader looks for a local function, a deconstruction and a local, in this order, and takes
what is left for an expression.

* `Clean.localDeclaration` and `Clean.call`: which of them it takes the statements of a core program for.
* `Statements.reads`: a block is read to its end, and recorded as its tree says.
-/

namespace CSharpStyle

open Token CoreGrammar

namespace CoreGrammar.LocalType

variable (type : LocalType)

theorem isName_or_isBuiltInType : (type.token.isName || type.token.isBuiltInType) = true := by
  cases type with
  | explicit type => exact type.isName_or_isBuiltInType
  | inferred word => rfl

theorem isPunctuation (mark : String) : type.token.isPunctuation mark = false := by
  cases type with
  | explicit type => exact type.isPunctuation mark
  | inferred word => rfl

theorem isVar_eq : (type.token.text == "var") = type.isVar := by
  cases type with
  | explicit type => exact beq_eq_false_iff_ne.mpr (type.text_ne (by decide))
  | inferred word => rfl

theorem isFunctionModifier : Cursor.isFunctionModifier type.token = false := by
  have hnot : ∀ word ∈ Keyword.builtInTypes, word ∉ ["static", "async", "unsafe", "extern"] := by decide
  cases type with
  | explicit type =>
    cases type with
    | builtIn word span h => simpa [Cursor.isFunctionModifier, token, TypeWord.token] using forall_builtIn hnot h
    | named name => rfl
  | inferred word => rfl

theorem isLocalModifier : Cursor.isLocalModifier type.token = false := by
  cases type with
  | explicit type =>
    have hscoped : (type.token.text == "scoped") = false := beq_eq_false_iff_ne.mpr (type.text_ne (by decide))
    rw [Cursor.isLocalModifier, show (explicit type).token = type.token from rfl, hscoped, type.isKeyword rfl,
      type.isKeyword rfl, Bool.and_false]
    rfl
  | inferred word => rfl

end CoreGrammar.LocalType

namespace Reading

variable {s : Reading} {rest : List Token} {o : Outline}

/-- No statement begins with the keyword of a built-in type. -/
theorem keywordStatement_builtIn (statement : StatementReader) (scope : ScopeId) (s : Reading) {word : String}
    (h : Keyword.isBuiltInType word) :
    keywordStatement statement word scope s = declarationOrExpression statement scope s := by
  refine forall_builtIn (p := fun word => keywordStatement statement word scope s = _) ?_ h
  simp only [Keyword.builtInTypes, List.forall_mem_cons]
  exact ⟨rfl, rfl, rfl, rfl, rfl, rfl, rfl, rfl, rfl, rfl, rfl, rfl, rfl, rfl, rfl, rfl, List.forall_mem_nil _⟩

namespace Clean

/-- A statement that begins with a type or a name is a declaration or an expression. -/
theorem statement (type : LocalType) {u : Token} (h : s.Clean (type.token :: u :: rest) o)
    (hu : u.isPunctuation ":" = false) (scope : ScopeId) :
    Statement.read scope s = declarationOrExpression Statement.read scope s := by
  rw [Statement.read_eq h.moving, statementAt]
  simp only [h.toAt.peek]
  cases type with
  | explicit type =>
    cases type with
    | builtIn word span hword => exact keywordStatement_builtIn _ scope s hword
    | named name =>
      show (if s.cursor.seesSecond ":" then s.next.next else _) = _
      rw [h.seesSecond, hu, if_neg Bool.false_ne_true]
  | inferred word => rfl

/-- A type in front of a name does not begin a local function unless a parenthesis follows. -/
theorem localFunctionName_none (type : LocalType) (name : Name) {u : Token}
    (h : s.Clean (type.token :: name.token :: u :: rest) o)
    (hu : u.isPunctuation "(" = false ∧ u.isPunctuation "<" = false) : s.cursor.localFunctionName? = none := by
  have htype := h.typeWord type.isName_or_isBuiltInType (type.isPunctuation _) fun _ _ => rfl
  have hname : s.next.cursor.name? = some (name.token, s.next.next.cursor) := by
    rw [Cursor.name?, show s.next.cursor.peek? = some name.token from h.next.toAt.peek]
    rfl
  have hparen : s.next.next.cursor.sees "(" = false := (h.next.next.toAt.sees "(").trans hu.1
  have hangle : s.next.next.cursor.typeArguments? = none := by
    rw [Cursor.typeArguments?, Cursor.eat?, show s.next.next.cursor.sees "<" = false from
      (h.next.next.toAt.sees "<").trans hu.2]
    rfl
  rw [Cursor.localFunctionName?, skipWhile_eq_self h.toAt.peek type.isFunctionModifier, htype]
  simp only [hname, hparen, hangle]
  rfl

/-- A type in front of a name and `=` begins a local. -/
theorem localDeclaration_some (type : LocalType) (name : Name) (assign : Mark "=")
    (h : s.Clean (type.token :: name.token :: assign.token :: rest) o) :
    s.cursor.localDeclaration? .statement = some (.type type.isVar, s.next.cursor) := by
  have htype := h.typeWord type.isName_or_isBuiltInType (type.isPunctuation _) fun _ _ => rfl
  have hsecond : s.cursor.seesSecond "(" = false := h.seesSecond "("
  have hassign : s.next.cursor.seesSecond "=" = true := h.next.seesSecond "="
  have hparen : s.cursor.sees "(" = false := (h.toAt.sees "(").trans (type.isPunctuation "(")
  have hname : s.next.cursor.seesName = true := by
    rw [Cursor.seesName, show s.next.cursor.peek? = some name.token from h.next.toAt.peek]
    rfl
  rw [Cursor.localDeclaration?, skipWhile_eq_self h.toAt.peek type.isLocalModifier, hsecond, hparen, Bool.and_false,
    if_neg Bool.false_ne_true, Bool.false_and, if_neg Bool.false_ne_true]
  simp only [Cursor.declaredType?, htype, hassign, hname, type.isVar_eq, Bool.true_or, Bool.and_self, ↓reduceIte]

/-! ### Locals and calls -/

/-- A literal in front of `;` is all of a value. -/
theorem initializer (statement : StatementReader) (value : Literal) (semicolon : Mark ";")
    (h : s.Clean (value.token :: semicolon.token :: rest) o) (scope : ScopeId) :
    Reading.initializer statement scope [","] s = (.apparent, s.next) := by
  have hsemicolon := h.next
  have hvalue : expressionRound statement scope [","] ([], s) = .again ([], s.next) :=
    expressionRound_other h.toAt.peek rfl rfl rfl rfl
  have hend : expressionRound statement scope [","] ([], s.next) = .done s.next := by
    simp only [expressionRound, hsemicolon.toAt.peek]
    rfl
  have hless : s.next.size < s.size := by
    rw [h.size, hsemicolon.size]
    exact Nat.lt_succ_self _
  have hskip : skipExpression statement scope [","] s = s.next :=
    (rounds_of_again hvalue hless).trans (rounds_of_done hend)
  have hpiece : s.cursor.upTo s.next.cursor = [value.token] := by
    rw [Cursor.upTo, show s.cursor.ahead = _ from h.ahead, show s.next.cursor.ahead = _ from hsemicolon.ahead]
    simp
  have hliteral : Initializer.isApparent [value.token] = true := by
    rw [Initializer.isApparent]
    rfl
  rw [Reading.initializer, hskip, hpiece, Initializer.classify, if_pos hliteral]

theorem declarators (statement : StatementReader) (name : Name) (assign : Mark "=") (value : Literal)
    (semicolon : Mark ";") (h : s.Clean (name.token :: assign.token :: value.token :: semicolon.token :: rest) o)
    (scope : ScopeId) (isVar : Bool) :
    (Reading.declarators statement .statement scope isVar s).Clean rest
      (o.newGroup.2.declare scope
        { name := name.declared, role := .localVariable, kind := .localVariable, position := name.span.start
          group := some ⟨o.newGroup.1, 0⟩
          localDetail := some { usesVar := isVar, inForeach := false, apparentness := .apparent } }) := by
  obtain ⟨hgroup, hs⟩ := h.newGroup
  let v := s.newGroup.2.next.next
  have hv : v.Clean (value.token :: semicolon.token :: rest) o.newGroup.2 := hs.next.next
  let u := v.next.declareLocal scope ⟨name.token, isVar⟩ .localVariable false .apparent (some ⟨s.newGroup.1, 0⟩)
  have hu : u.Clean (semicolon.token :: rest) _ := hv.next.declare scope _
  have hvalue : declaratorValue statement scope s.newGroup.2.next = (.apparent, v.next) := by
    rw [declaratorValue, hs.next.toAt.eat "=" rfl]
    exact hv.initializer statement value semicolon scope
  have hround : declaratorRound statement .statement scope isVar (some s.newGroup.1) (0, s.newGroup.2) =
      .done u.next := by
    have hlocal : v.next.declareLocal scope ⟨name.token, isVar⟩
        (if LocalContext.statement = .constant then .constant else .localVariable) false .apparent
        ((some s.newGroup.1).map fun group => { group, index := 0 }) = u := rfl
    rw [declaratorRound]
    simp only [hs.toAt.name (t := name.token) rfl, hvalue, hlocal, hu.toAt.eat_none "," rfl, endDeclaration,
      hu.toAt.eat ";" rfl]
    rfl
  rw [show Reading.declarators statement .statement scope isVar s = u.next from rounds_of_done hround, ← hgroup]
  exact hu.next

/-- A local is recorded up to its `;`. -/
theorem localDeclaration (type : LocalType) (name : Name) (assign : Mark "=") (value : Literal) (semicolon : Mark ";")
    (h : s.Clean (type.token :: name.token :: assign.token :: value.token :: semicolon.token :: rest) o)
    (scope : ScopeId) :
    (Statement.read scope s).Clean rest
      (o.newGroup.2.declare scope
        { name := name.declared, role := .localVariable, kind := .localVariable, position := name.span.start
          group := some ⟨o.newGroup.1, 0⟩
          localDetail := some { usesVar := type.isVar, inForeach := false, apparentness := .apparent } }) := by
  rw [h.statement type rfl scope, declarationOrExpression, h.localFunctionName_none type name ⟨rfl, rfl⟩]
  simp only [localDeclarationOr, h.localDeclaration_some type name assign]
  exact h.next.declarators Statement.read name assign value semicolon scope type.isVar

/-- The name of a call begins nothing else. -/
theorem localDeclaration_none (name : Name) (parentheses : Parentheses)
    (h : s.Clean (name.token :: (parentheses.around [] ++ rest)) o) :
    s.cursor.localFunctionName? = none ∧ s.cursor.localDeclaration? .statement = none := by
  let type := LocalType.explicit (.named name)
  have hmarks : ∀ mark ∈ ["<", ".", "::", "?", "*", "["], ("(" == mark) = false := by decide
  have htype : s.cursor.type? = some (type.isVar, s.next.cursor) := by
    rw [h.typeWord (t := type.token) type.isName_or_isBuiltInType rfl hmarks, type.isVar_eq]
  have hname : s.next.cursor.seesName = false := by
    rw [Cursor.seesName, show s.next.cursor.peek? = some parentheses.opening.token from h.next.toAt.peek]
    rfl
  have hsecond : s.cursor.seesKeyword "var" = false := h.toAt.seesKeyword "var"
  have hparen : s.cursor.sees "(" = false := h.toAt.sees "("
  constructor
  · rw [Cursor.localFunctionName?, skipWhile_eq_self h.toAt.peek type.isFunctionModifier, htype]
    simp only [Cursor.name?, show s.next.cursor.peek? = some parentheses.opening.token from h.next.toAt.peek]
    rfl
  · rw [Cursor.localDeclaration?, skipWhile_eq_self h.toAt.peek type.isLocalModifier, hsecond, hparen, Bool.false_and,
      if_neg Bool.false_ne_true, Bool.false_and, if_neg Bool.false_ne_true]
    simp only [Cursor.declaredType?, htype, hname, Bool.false_and, Bool.false_eq_true, ↓reduceIte]

/-- A call records nothing. -/
theorem call (name : Name) (parentheses : Parentheses) (semicolon : Mark ";")
    (h : s.Clean (name.token :: (parentheses.around [] ++ semicolon.token :: rest)) o) (scope : ScopeId) :
    (Statement.read scope s).Clean rest o := by
  obtain ⟨hfunction, hlocal⟩ := h.localDeclaration_none name parentheses
  have hopening := h.next
  have hclosing := hopening.next
  have hsemicolon := hclosing.next
  -- The expression is skipped token by token. The closer that is awaited keeps it from ending between the parentheses.
  let round := expressionRound Statement.read scope []
  have hname : round ([], s) = .again ([], s.next) := expressionRound_other h.toAt.peek rfl rfl rfl rfl
  have hopen : round ([], s.next) = .again ([")"], s.next.next) := by
    simp only [round, expressionRound, hopening.toAt.peek]
    rfl
  have hclose : round ([")"], s.next.next) = .again ([], s.next.next.next) := by
    simp only [round, expressionRound, hclosing.toAt.peek]
    rfl
  have hend : round ([], s.next.next.next) = .done s.next.next.next := by
    simp only [round, expressionRound, hsemicolon.toAt.peek]
    rfl
  have hless {t : Token} {behind : List Token} {u : Reading} (hu : u.Clean (t :: behind) o) : u.next.size < u.size := by
    rw [hu.size, hu.next.size]
    exact Nat.lt_succ_self _
  have hskip : skipExpression Statement.read scope [] s = s.next.next.next :=
    calc skipInside Statement.read scope [] [] s
        = skipInside Statement.read scope [] [] s.next := rounds_of_again hname (hless h)
      _ = skipInside Statement.read scope [] [")"] s.next.next := rounds_of_again hopen (hless hopening)
      _ = skipInside Statement.read scope [] [] s.next.next.next := rounds_of_again hclose (hless hclosing)
      _ = s.next.next.next := rounds_of_done hend
  rw [h.statement (.explicit (.named name)) rfl scope, declarationOrExpression, hfunction]
  simp only [localDeclarationOr, hlocal, skipToStatementEnd, hskip, skip, hsemicolon.toAt.eat ";" rfl]
  exact hsemicolon.next

end Clean

end Reading

/-! ### Blocks -/

open Reading

namespace CoreGrammar.Statements

/-- The statements of a block, up to the brace that closes it, are recorded in the scope of the block. -/
def Reads (statements : Statements) : Prop :=
  ∀ {s : Reading} {closing : Mark "\x7d"} {rest : List Token} {o : Outline} (opening : Position) (scope : ScopeId),
    s.Clean (statements.tokens ++ closing.token :: rest) o →
      (rounds Reading.size (blockRound Statement.read opening scope) stall s).Clean rest
        (statements.contents.record scope o)

/-- A block is a scope with what its statements declare. -/
theorem Reads.block {statements : Statements} (hstatements : statements.Reads) {braces : Braces} {s : Reading}
    {rest : List Token} {o : Outline} (h : s.Clean (braces.around statements.tokens ++ rest) o) (parent : ScopeId) :
    (Reading.block Statement.read parent s).Clean rest
      ((Contents.scope .block none none statements.contents .done).record parent o) := by
  rw [Brackets.around, List.cons_append, List.append_assoc] at h
  obtain ⟨hscope, hinner⟩ := h.next.openScope .block none parent
  rw [Reading.block]
  simp only [hscope]
  exact hstatements _ _ hinner

/-- A round reads a statement, and the rounds behind it the statements that follow. -/
theorem Reads.step {more : Statements} (ih : more.Reads) {closing : Mark "\x7d"} {s : Reading} {t : Token}
    {ahead rest : List Token} {o o' : Outline} (h : s.Clean (t :: ahead) o) (ht : t.isPunctuation "\x7d" = false)
    {opening : Position} {scope : ScopeId}
    (hread : (Statement.read scope s).Clean (more.tokens ++ closing.token :: rest) o')
    (hless : (more.tokens ++ closing.token :: rest).length ≤ ahead.length) :
    (rounds Reading.size (blockRound Statement.read opening scope) stall s).Clean rest
      (more.contents.record scope o') := by
  have hprogress := h.progress _ hread (Nat.lt_succ_of_le hless)
  have hround : blockRound Statement.read opening scope s = .again (Statement.read scope s) := by
    rw [blockRound, h.toAt.peek]
    simp only [ht, Bool.false_eq_true, ↓reduceIte, hprogress]
  rw [h.rounds_again hround hread (Nat.lt_succ_of_le hless)]
  exact ih opening scope hread

theorem reads (statements : Statements) : statements.Reads := by
  induction statements with
  | done =>
    intro s closing rest o opening scope h
    have hend : blockRound Statement.read opening scope s = .done s.next := by
      rw [blockRound, h.toAt.peek]
      rfl
    rw [rounds_of_done hend]
    exact h.next
  | declaration type name assign value semicolon more ih =>
    intro s closing rest o opening scope h
    refine ih.step h (type.isPunctuation _) (h.localDeclaration type name assign value semicolon scope) ?_
    simp
    omega
  | call name parentheses semicolon more ih =>
    intro s closing rest o opening scope h
    simp only [tokens, List.cons_append, List.append_assoc] at h
    refine ih.step h rfl (h.call name parentheses semicolon scope) ?_
    simp [Brackets.around]
    omega
  | block braces inner more ihInner ihMore =>
    intro s closing rest o opening scope h
    rw [tokens, List.append_assoc] at h
    have hblock : Statement.read scope s = Reading.block Statement.read scope s := by
      rw [Statement.read_eq h.moving, statementAt, h.toAt.peek]
      rfl
    have hread := ihInner.block h scope
    rw [← hblock] at hread
    refine ihMore.step h rfl hread ?_
    simp
    omega

end CoreGrammar.Statements

end CSharpStyle
