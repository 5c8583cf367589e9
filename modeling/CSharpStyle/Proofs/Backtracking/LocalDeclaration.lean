import CSharpStyle.Grammar.Statement
import CSharpStyle.Lexical.Lexer
import CSharpStyle.Proofs.Backtracking.TypeReference
import CSharpStyle.Proofs.Correspondence.Cursor

/-!
# Attempts at local declarations

Whether a local function, a local or a deconstruction begins can be tried on the reading itself: the attempt moves it,
and records the first name only when the beginning has turned out to be one. Patterns stand inside patterns and types
inside them, so that there are many places where an attempt can fail, and each goes back to where the attempt began.

* `Reading.tryPattern_eq`: a pattern of patterns is read as one with a count of those that are open.
* `Reading.tryLocalFunction_eq`, `Reading.tryLocalDeclaration_eq`: what these attempts do when they succeed and when
  they fail.
* `Reading.failed_attempts_leave_no_trace`: an attempt that fails leaves the place, the outline and the defects as they
  were, and statements are read by such attempts.
-/

namespace CSharpStyle

namespace Declarator

variable {usesVar : Bool}

/-! ### Patterns inside patterns -/

/-- Reads on behind names, if they are not malformed. -/
def Names.andThen (read : Names) (next : List Declarator → Cursor → Names) : Names :=
  match read with
  | (some names, c) => next names c
  | (none, c) => (none, c)

/-- A pattern inside one more pattern is read like a pattern, and then the one around it is read on. The induction is
that of the reader, with one statement for each of its functions. -/
theorem elements_succ (before : List Declarator) (outer : Nat) (names : List Declarator) (c : Cursor) :
    elements usesVar (outer + 1) (before ++ names) c =
      Names.andThen (elements usesVar outer names c) fun more => closePatterns usesVar 0 (before ++ more) := by
  refine elements.induct usesVar
    (fun outer names c => elements usesVar (outer + 1) (before ++ names) c =
      Names.andThen (elements usesVar outer names c) fun more => closePatterns usesVar 0 (before ++ more))
    (fun outer names c => closePatterns usesVar (outer + 1) (before ++ names) c =
      Names.andThen (closePatterns usesVar outer names c) fun more => closePatterns usesVar 0 (before ++ more))
    ?nested ?malformed ?element ?comma ?unclosed ?innermost ?closing outer names c
  case nested =>
    intro outer names c d hparen ih
    rw [elements_eq usesVar (outer + 1) (before ++ names) c, elements_eq usesVar outer names c, hparen]
    exact ih
  case malformed =>
    intro outer names c hparen d helement
    rw [elements_eq usesVar (outer + 1) (before ++ names) c, elements_eq usesVar outer names c, hparen, helement]
    rfl
  case element =>
    intro outer names c hparen more d helement ih
    rw [elements_eq usesVar (outer + 1) (before ++ names) c, elements_eq usesVar outer names c, hparen, helement]
    rw [← List.append_assoc] at ih
    exact ih
  case comma =>
    intro outer names c d hcomma ih
    rw [closePatterns_eq usesVar (outer + 1) (before ++ names) c, closePatterns_eq usesVar outer names c, hcomma]
    exact ih
  case unclosed =>
    intro outer names c hcomma hparen
    rw [closePatterns_eq usesVar (outer + 1) (before ++ names) c, closePatterns_eq usesVar outer names c, hcomma,
      hparen]
    rfl
  case innermost =>
    intro names c hcomma d hparen
    rw [closePatterns_eq usesVar (0 + 1) (before ++ names) c, closePatterns_eq usesVar 0 names c, hcomma, hparen]
    rfl
  case closing =>
    intro names c hcomma d hparen outer ih
    rw [closePatterns_eq usesVar (outer.succ + 1) (before ++ names) c, closePatterns_eq usesVar outer.succ names c,
      hcomma, hparen]
    exact ih

theorem size_elements_lt {outer : Nat} {names more : List Declarator} {c d : Cursor}
    (h : elements usesVar outer names c = (some more, d)) : d.size < c.size := by
  refine elements.induct usesVar
    (fun outer names c => ∀ more d, elements usesVar outer names c = (some more, d) → d.size < c.size)
    (fun outer names c => ∀ more d, closePatterns usesVar outer names c = (some more, d) → d.size < c.size)
    ?nested ?malformed ?element ?comma ?unclosed ?innermost ?closing outer names c more d h
  case nested =>
    intro outer names c inner hparen ih more d h
    simp only [elements_eq usesVar outer, hparen] at h
    exact Nat.lt_trans (ih more d h) (Cursor.size_of_eat? hparen)
  case malformed =>
    intro outer names c hparen e helement more d h
    simp only [elements_eq usesVar outer, hparen, helement] at h
    cases h
  case element =>
    intro outer names c hparen found e helement ih more d h
    simp only [elements_eq usesVar outer, hparen, helement] at h
    exact Nat.lt_trans (ih more d h) (size_element_lt helement)
  case comma =>
    intro outer names c e hcomma ih more d h
    simp only [closePatterns_eq usesVar outer, hcomma] at h
    exact Nat.lt_trans (ih more d h) (Cursor.size_of_eat? hcomma)
  case unclosed =>
    intro outer names c hcomma hparen more d h
    simp only [closePatterns_eq usesVar outer, hcomma, hparen] at h
    cases h
  case innermost =>
    intro names c hcomma e hparen more d h
    simp only [closePatterns_eq usesVar 0, hcomma, hparen] at h
    cases h
    exact Cursor.size_of_eat? hparen
  case closing =>
    intro names c hcomma e hparen outer ih more d h
    simp only [closePatterns_eq usesVar outer.succ, hcomma, hparen] at h
    exact Nat.lt_trans (ih more d h) (Cursor.size_of_eat? hparen)

/-- A name of a pattern, or a pattern in its place. -/
def part (usesVar : Bool) (c : Cursor) : Names := if c.sees "(" then pattern usesVar c else element usesVar c

theorem elements_zero (names : List Declarator) (c : Cursor) :
    elements usesVar 0 names c =
      Names.andThen (part usesVar c) fun more => closePatterns usesVar 0 (names ++ more) := by
  rw [elements_eq, part, pattern, Cursor.eat?]
  by_cases hparen : c.sees "("
  · have hnested : elements usesVar 1 (names ++ []) c.next =
        Names.andThen (elements usesVar 0 [] c.next) fun more => closePatterns usesVar 0 (names ++ more) :=
      elements_succ names 0 [] c.next
    rw [List.append_nil] at hnested
    simpa only [hparen, if_true] using hnested
  · rw [if_neg hparen, if_neg hparen]
    cases element usesVar c with
    | mk found d => cases found <;> rfl

theorem size_part_lt {more : List Declarator} {c d : Cursor} (h : part usesVar c = (some more, d)) :
    d.size < c.size := by
  unfold part at h
  split at h
  · rw [pattern] at h
    split at h
    · rename_i hparen
      exact Nat.lt_trans (size_elements_lt h) (Cursor.size_of_eat? hparen)
    · cases h
  · exact size_element_lt h

end Declarator

theorem Cursor.eq_next_of_name? {c d : Cursor} {name : Token} (h : c.name? = some (name, d)) : d = c.next := by
  unfold Cursor.name? at h
  split at h
  · split at h
    · cases h
      rfl
    · cases h
  · cases h

namespace Reading

/-- What a reader on the cursor gives, on the reading. -/
def landed {α : Type} (s : Reading) (read : Option α × Cursor) : Option α × Reading := (read.1, s.move fun _ => read.2)

section

variable (inner : Reading → Option (List Declarator) × Reading) (usesVar : Bool)

/-- Reads a name of a pattern, or with `inner` a pattern in its place. -/
def tryPart (s : Reading) : Option (List Declarator) × Reading :=
  if s.sees "(" then inner s
  else if usesVar then
    match s.name? with
    | some (token, t) => (some (Declarator.ofName token true), t)
    | none => (none, s)
  else
    match s.tryType with
    | (none, t) => (none, t)
    | (some isVar, t) =>
      match t.name? with
      | some (token, t) => (some (Declarator.ofName token isVar), t)
      | none => (none, t)

/-- One more part of a pattern and the mark behind it. -/
def patternRound : List Declarator × Reading → Round (List Declarator × Reading) (Option (List Declarator) × Reading)
  | (names, s) =>
    match tryPart inner usesVar s with
    | (none, t) => .done (none, t)
    | (some more, t) =>
      match t.eat? "," with
      | some t => .again (names ++ more, t)
      | none =>
        match t.eat? ")" with
        | some t => .done (some (names ++ more), t)
        | none => .done (none, t)

/-- Reads a pattern whose inner patterns `inner` reads. Where it is malformed the reading stays. -/
def tryPatternWith (s : Reading) : Option (List Declarator) × Reading :=
  match s.eat? "(" with
  | none => (none, s)
  | some t => rounds (·.2.size) (patternRound inner usesVar) (fun u => (none, u.2.stall)) ([], t)

end

/-- Reads a deconstruction pattern. -/
def tryPattern (usesVar : Bool) (s : Reading) : Option (List Declarator) × Reading :=
  tryPatternWith (fun t => if t.size < s.size then tryPattern usesVar t else (none, t.stall)) usesVar s
termination_by s.size

theorem tryPart_eq {inner : Reading → Option (List Declarator) × Reading} {usesVar : Bool} {s : Reading}
    (hinner : inner s = s.landed (Declarator.pattern usesVar s.cursor)) :
    tryPart inner usesVar s = s.landed (Declarator.part usesVar s.cursor) := by
  rw [tryPart, Declarator.part, sees]
  by_cases hparen : s.cursor.sees "("
  · rw [if_pos hparen, if_pos hparen, hinner]
  · rw [if_neg hparen, if_neg hparen, Declarator.element, tryType_eq, type?]
    cases usesVar with
    | true =>
      rw [if_pos rfl, if_pos rfl, name?]
      cases s.cursor.name? <;> rfl
    | false =>
      rw [if_neg Bool.false_ne_true, if_neg Bool.false_ne_true]
      cases s.cursor.type? with
      | none => rfl
      | some read =>
        obtain ⟨isVar, c⟩ := read
        simp only [Option.map_some, outcome, Option.elim_some, name?]
        cases c.name? <;> rfl

/-- The parts of a pattern and its end are read as `Declarator.elements` reads them. -/
theorem rounds_patternRound {inner : Reading → Option (List Declarator) × Reading} {usesVar : Bool} {n : Nat}
    (hinner : ∀ t : Reading, t.size < n → inner t = t.landed (Declarator.pattern usesVar t.cursor)) {s : Reading}
    (hn : s.size < n) (names : List Declarator) :
    rounds (·.2.size) (patternRound inner usesVar) (fun u => (none, u.2.stall)) (names, s) =
      s.landed (Declarator.elements usesVar 0 names s.cursor) := by
  induction h : s.size using Nat.strongRecOn generalizing s names with
  | ind m ih =>
    subst h
    have hpart := tryPart_eq (hinner s hn)
    rw [Declarator.elements_zero]
    cases hread : Declarator.part usesVar s.cursor with
    | mk found c =>
      rw [hread, landed] at hpart
      cases found with
      | none =>
        have hround : patternRound inner usesVar (names, s) = .done (none, s.move fun _ => c) := by
          rw [patternRound, hpart]
        exact rounds_of_done hround
      | some more =>
        have hsize : c.size < s.size := Declarator.size_part_lt hread
        rw [Declarator.Names.andThen, Declarator.closePatterns_eq]
        cases hcomma : c.eat? "," with
        | some d =>
          have hround : patternRound inner usesVar (names, s) = .again (names ++ more, s.move fun _ => d) := by
            simp [patternRound, hpart, eat?, move, hcomma]
          have hlt : (s.move fun _ => d).size < s.size := Nat.lt_trans (Cursor.size_of_eat? hcomma) hsize
          rw [rounds_of_again hround hlt]
          exact ih _ hlt (Nat.lt_trans hlt hn) _ rfl
        | none =>
          cases hparen : c.eat? ")" with
          | some d =>
            have hround : patternRound inner usesVar (names, s) = .done (some (names ++ more), s.move fun _ => d) := by
              simp [patternRound, hpart, eat?, move, hcomma, hparen]
            exact rounds_of_done hround
          | none =>
            have hround : patternRound inner usesVar (names, s) = .done (none, s.move fun _ => c) := by
              simp [patternRound, hpart, eat?, move, hcomma, hparen]
            exact rounds_of_done hround

/-- A pattern of patterns is read as one with a count of those that are open. -/
theorem tryPattern_eq (usesVar : Bool) (s : Reading) :
    s.tryPattern usesVar = s.landed (Declarator.pattern usesVar s.cursor) := by
  induction h : s.size using Nat.strongRecOn generalizing s with
  | ind n ih =>
    subst h
    have hinner : ∀ t : Reading, t.size < s.size →
        (if t.size < s.size then tryPattern usesVar t else (none, t.stall)) =
          t.landed (Declarator.pattern usesVar t.cursor) :=
      fun t ht => (if_pos ht).trans (ih t.size ht t rfl)
    rw [tryPattern, tryPatternWith, eat?, Declarator.pattern]
    cases hparen : s.cursor.eat? "(" with
    | none => rfl
    | some c =>
      have hlt : (s.move fun _ => c).size < s.size := Cursor.size_of_eat? hparen
      exact rounds_patternRound hinner hlt []

/-! ### Declarations and local functions -/

section

variable (statement : StatementReader) (scope : ScopeId)

/-- Reads the rest of a local function from behind its name on. It began at `start`. What follows the name may also be
a comparison, so that only a parameter list decides. -/
def tryFunctionRest (start : Reading) (name : Token) (s : Reading) : Bool × Reading :=
  match if s.sees "<" then s.tryTypeArguments else (true, s) with
  | (false, t) => (false, t.backTo start)
  | (true, t) =>
    if t.sees "(" then (true, localFunction statement scope name (t.backTo s)) else (false, t.backTo start)

/-- Reads a local function if one begins here. -/
def tryLocalFunction (s : Reading) : Bool × Reading :=
  match (s.move (.skipWhile Cursor.isFunctionModifier)).tryType with
  | (none, t) => (false, t.backTo s)
  | (some _, t) =>
    match if t.cursor.seesSecond "(" || t.cursor.seesSecond "<" then t.name? else none with
    | none => (false, t.backTo s)
    | some (name, t) => tryFunctionRest statement scope s name t

/-- Reads a deconstruction from its pattern on. It began at `start`. -/
def tryDeconstruction (start : Reading) (usesVar : Bool) (s : Reading) : Bool × Reading :=
  match s.tryPattern usesVar with
  | (none, t) => (false, t.backTo start)
  | (some names, t) =>
    match t.eat? "=" with
    | none => (false, t.backTo start)
    | some t => (true, deconstruction statement scope names t)

/-- Reads a local declaration if one begins here. -/
def tryLocalDeclaration (context : LocalContext) (s : Reading) : Bool × Reading :=
  let t := s.move (.skipWhile Cursor.isLocalModifier)
  if t.seesKeyword "var" && t.cursor.seesSecond "(" then tryDeconstruction statement scope s true t.next
  else if t.sees "(" && context = .statement then tryDeconstruction statement scope s false t
  else
    match t.tryType with
    | (none, u) => (false, u.backTo s)
    | (some isVar, u) =>
      let follows (mark : String) := u.cursor.seesSecond mark
      if u.cursor.seesName && (follows "=" || follows ";" || follows "," ||
          (context = .usingResource && follows ")")) then
        (true, declarators statement context scope isVar u)
      else (false, u.backTo s)

/-- A type behind some tokens that belong to it, read on the cursor. -/
theorem tryType_move (s : Reading) (f : Cursor → Cursor) :
    (∃ isVar c, (f s.cursor).type? = some (isVar, c) ∧ (s.move f).tryType = (some isVar, s.move fun _ => c)) ∨
      (f s.cursor).type? = none ∧ (s.move f).tryType = (none, s.move f) := by
  have hread : (s.move f).type? = (f s.cursor).type?.map fun read => (read.1, s.move fun _ => read.2) := rfl
  rw [tryType_eq, hread]
  cases (f s.cursor).type? with
  | none => exact .inr ⟨rfl, rfl⟩
  | some read => exact .inl ⟨read.1, read.2, rfl, rfl⟩

theorem tryFunctionRest_eq (s : Reading) (name : Token) (c : Cursor) :
    tryFunctionRest statement scope s name (s.move fun _ => c) =
      if c.sees "(" || c.typeArguments?.any (·.sees "(") then
        (true, localFunction statement scope name { s with cursor := c })
      else (false, s) := by
  have hsees (d : Cursor) (mark : String) : (s.move fun _ => d).sees mark = d.sees mark := rfl
  rw [tryFunctionRest, hsees]
  -- A `<` is either the beginning of type parameters or a comparison, and in both cases no `(`.
  by_cases hangle : c.sees "<"
  · have hparen : c.sees "(" = false := Cursor.sees_of_ne hangle (by decide)
    have harguments : (s.move fun _ => c).tryTypeArguments =
        (s.move fun _ => c).outcome false c.typeArguments? fun d => (true, s.move fun _ => d) :=
      tryTypeArguments_eq (s.move fun _ => c)
    rw [if_pos hangle, harguments, hparen]
    cases c.typeArguments? with
    | none => rfl
    | some d =>
      simp only [outcome, Option.elim_some, hsees, Option.any_some, Bool.false_or]
      split <;> rfl
  · have hnone : c.typeArguments? = none := by simp [Cursor.typeArguments?, Cursor.eat?, hangle]
    rw [if_neg hangle, hnone]
    simp only [hsees, Option.any_none, Bool.or_false]
    split <;> rfl

theorem tryLocalFunction_eq (s : Reading) :
    tryLocalFunction statement scope s =
      s.outcome false s.cursor.localFunctionName? fun (name, c) =>
        (true, localFunction statement scope name { s with cursor := c }) := by
  rw [tryLocalFunction, Cursor.localFunctionName?]
  obtain ⟨isVar, c, htype, htry⟩ | ⟨htype, htry⟩ := s.tryType_move (.skipWhile Cursor.isFunctionModifier)
  · rw [htype, htry]
    cases hname : c.name? with
    | none =>
      have hname' : (s.move fun _ => c).name? = none := by simp [name?, move, hname]
      simp only [hname', hname, ite_self]
      rfl
    | some read =>
      obtain ⟨name, d⟩ := read
      have hname' : (s.move fun _ => c).name? = some (name, s.move fun _ => d) := by simp [name?, move, hname]
      have hsecond (mark : String) : (s.move fun _ => c).cursor.seesSecond mark = d.sees mark := by
        rw [Cursor.eq_next_of_name? hname]
        rfl
      simp only [hname', hname, hsecond]
      by_cases hopens : (d.sees "(" || d.sees "<") = true
      · rw [if_pos hopens]
        simp only [tryFunctionRest_eq]
        split <;> rfl
      · obtain ⟨hparen, hangle⟩ : d.sees "(" = false ∧ d.sees "<" = false := by simpa using hopens
        have hnone : d.typeArguments? = none := by simp [Cursor.typeArguments?, Cursor.eat?, hangle]
        simp only [hparen, hangle, hnone, Bool.or_self, Bool.false_eq_true, if_false, Option.any_none]
        rfl
  · rw [htype, htry]
    rfl

theorem tryDeconstruction_eq {start s : Reading} (usesVar : Bool) (h : s.backTo start = start)
    (context : LocalContext) :
    tryDeconstruction statement scope start usesVar s =
      start.outcome false (s.cursor.deconstruction? usesVar) fun (beginning, c) =>
        (true, localDeclaration statement context scope beginning { start with cursor := c }) := by
  have hmoved : s = start.move fun _ => s.cursor := by
    rw [← h]
    rfl
  rw [tryDeconstruction, tryPattern_eq, Cursor.deconstruction?, landed]
  cases Declarator.pattern usesVar s.cursor with
  | mk names c =>
    rw [hmoved]
    cases names with
    | none => rfl
    | some names =>
      simp only [eat?, move]
      cases c.eat? "=" <;> rfl

theorem tryLocalDeclaration_eq (context : LocalContext) (s : Reading) :
    tryLocalDeclaration statement scope context s =
      s.outcome false (s.cursor.localDeclaration? context) fun (beginning, c) =>
        (true, localDeclaration statement context scope beginning { s with cursor := c }) := by
  have hcursor : (s.move (.skipWhile Cursor.isLocalModifier)).cursor = s.cursor.skipWhile Cursor.isLocalModifier := rfl
  simp only [tryLocalDeclaration, Cursor.localDeclaration?, seesKeyword, sees, hcursor]
  generalize hc : s.cursor.skipWhile Cursor.isLocalModifier = c
  by_cases hvar : (c.seesKeyword "var" && c.seesSecond "(") = true
  · rw [if_pos hvar, if_pos hvar, ← hc]
    exact tryDeconstruction_eq statement scope true rfl context
  · rw [if_neg hvar, if_neg hvar]
    by_cases hparen : (c.sees "(" && context = .statement) = true
    · rw [if_pos hparen, if_pos hparen, ← hc]
      exact tryDeconstruction_eq statement scope false rfl context
    · rw [if_neg hparen, if_neg hparen, Cursor.declaredType?, ← hc]
      obtain ⟨isVar, d, htype, htry⟩ | ⟨htype, htry⟩ := s.tryType_move (.skipWhile Cursor.isLocalModifier)
      · have hbehind : (s.move fun _ => d).cursor = d := rfl
        rw [htype, htry]
        simp only [hbehind]
        split <;> rfl
      · rw [htype, htry]
        rfl

/-! ### Statements -/

theorem localDeclarationOr_eq (context : LocalContext) (otherwise : Reading → Reading) (s : Reading) :
    localDeclarationOr statement context scope otherwise s =
      match tryLocalDeclaration statement scope context s with
      | (true, t) => t
      | (false, t) => otherwise t := by
  rw [localDeclarationOr, tryLocalDeclaration_eq]
  cases s.cursor.localDeclaration? context <;> rfl

theorem declarationOrExpression_eq (s : Reading) :
    declarationOrExpression statement scope s =
      match tryLocalFunction statement scope s with
      | (true, t) => t
      | (false, t) => localDeclarationOr statement .statement scope (skipToStatementEnd statement scope) t := by
  rw [declarationOrExpression, tryLocalFunction_eq]
  cases s.cursor.localFunctionName? <;> rfl

/-- An attempt at a type, at type arguments, at a local function or at a local declaration that fails leaves the reading
as it was, with its place, its outline and its defects. These are the attempts by which types and statements are read:
the next attempt, or what is read instead, goes on from what the one before has left. -/
theorem failed_attempts_leave_no_trace (s : Reading) :
    (s.tryType.1 = none → s.tryType.2 = s) ∧
    (s.tryTypeArguments.1 = false → s.tryTypeArguments.2 = s) ∧
    ((tryLocalFunction statement scope s).1 = false → (tryLocalFunction statement scope s).2 = s) ∧
    (∀ context, (tryLocalDeclaration statement scope context s).1 = false →
      (tryLocalDeclaration statement scope context s).2 = s) ∧
    s.tryType = (match s.type? with
      | some (isVar, t) => (some isVar, t)
      | none => (none, s)) ∧
    s.tryTypeArguments = (match s.cursor.typeArguments? with
      | some c => (true, s.move fun _ => c)
      | none => (false, s)) ∧
    (declarationOrExpression statement scope s =
      match tryLocalFunction statement scope s with
      | (true, t) => t
      | (false, t) => localDeclarationOr statement .statement scope (skipToStatementEnd statement scope) t) ∧
    ∀ context otherwise, localDeclarationOr statement context scope otherwise s =
      match tryLocalDeclaration statement scope context s with
      | (true, t) => t
      | (false, t) => otherwise t := by
  refine ⟨fun h => ?_, fun h => ?_, fun h => ?_, fun context h => ?_, ?_, ?_,
    declarationOrExpression_eq statement scope s,
    fun context otherwise => localDeclarationOr_eq statement scope context otherwise s⟩
  · rw [tryType_eq] at h ⊢
    exact outcome_of_failed (fun _ => Option.some_ne_none _) h
  · rw [tryTypeArguments_eq] at h ⊢
    exact outcome_of_failed (fun _ => Bool.noConfusion) h
  · rw [tryLocalFunction_eq] at h ⊢
    exact outcome_of_failed (fun _ => Bool.noConfusion) h
  · rw [tryLocalDeclaration_eq] at h ⊢
    exact outcome_of_failed (fun _ => Bool.noConfusion) h
  · rw [tryType_eq]
    cases s.type? <;> rfl
  · rw [tryTypeArguments_eq]
    cases s.cursor.typeArguments? <;> rfl

end

/-- Behind the pattern of patterns a sum goes on, so that the attempt fails after ten of the thirteen tokens. -/
theorem failed_attempts_leave_no_trace_sum :
    let s := ofTokens (TokenStream.ofSource "var (a, (b, c)) + d;").significant
    (s.next.tryPattern true).2.size = 3 ∧
      (tryLocalDeclaration Statement.read Outline.root .statement s).1 = false ∧
      (tryLocalDeclaration Statement.read Outline.root .statement s).2 = s := by
  intro s
  have hbeginning : s.cursor.localDeclaration? .statement = none := by decide +kernel
  have hfailed : (tryLocalDeclaration Statement.read Outline.root .statement s).1 = false := by
    rw [tryLocalDeclaration_eq, hbeginning]
    rfl
  have htrace := failed_attempts_leave_no_trace Statement.read Outline.root s
  refine ⟨?_, hfailed, htrace.2.2.2.1 .statement hfailed⟩
  rw [tryPattern_eq]
  decide +kernel

end Reading

end CSharpStyle
