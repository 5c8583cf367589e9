import CSharpStyle.Proofs.Grammar.Creation
import CSharpStyle.Proofs.Isolation.ClassBody

/-!
# Fields and locals with a created value

In `class C { private T _f = new T(A); void M() { var x = new T(A); } }` the type `T` is read once as a type and
skipped twice as part of a value. The class is read without a defect only if no comma of `T` ends a value.

* `At.fields` and `fields_split`: the field ends behind its value, or a comma of the value makes it malformed.
* `At.method` and `At.block`: the method is recorded with its local, which ends behind its value.
* `CompilationUnit.creation_iff`: the condition for types.
-/

namespace CSharpStyle

open Token

/-- The tokens of `private T _f = new T(A); void M() { var x = new T(A); }`. -/
def creationBody (type arguments : List Token) : List Token :=
  keyword "private" :: (type ++ identifier "_f" :: mark "=" :: (creation type arguments ++ mark ";" ::
    keyword "void" :: identifier "M" :: mark "(" :: mark ")" :: mark "\x7b" ::
      keyword "var" :: identifier "x" :: mark "=" :: (creation type arguments ++ [mark ";", mark "\x7d"])))

namespace Reading

variable {type arguments rest : List Token} {names : List String} {s : Reading} {t u : Token}

theorem not_isKeyword_of_isIdentifier (ht : t.isIdentifier) (word : String) : t.isKeyword word = false := by
  rw [isKeyword, show t.kind = .identifier from eq_of_beq ht]
  rfl

theorem not_isPunctuation_of_isIdentifier (ht : t.isIdentifier) (symbol : String) : t.isPunctuation symbol = false := by
  rw [isPunctuation, show t.kind = .identifier from eq_of_beq ht]
  rfl

/-! ### The field -/

/-- An identifier that is not the word `file` in front of a keyword begins no header. -/
theorem header_step_none {header : Header} {c : Cursor} (hpeek : c.peek? = some t) (ht : t.isIdentifier)
    (hsecond : c.second?.any (·.kind == .keyword) = false) : Header.step? header c = none := by
  have hkind : t.kind = .identifier := eq_of_beq ht
  simp [Header.step?, hpeek, hsecond, isPunctuation, isKeyword, hkind]

theorem At.header_private (h : s.At (keyword "private" :: t :: u :: rest) names) (ht : t.isIdentifier)
    (hu : u.kind ≠ .keyword) : ∃ header, s.header = (header, s.next) := by
  have hstep : ∃ header, Header.step? {} s.cursor = some (header, s.next.cursor) := by
    have hpeek : s.cursor.peek? = some (keyword "private") := h.peek
    simp only [Header.step?, hpeek]
    exact ⟨_, rfl⟩
  obtain ⟨header, hstep⟩ := hstep
  have hnone : Header.step? header s.next.cursor = none := by
    refine header_step_none h.next.peek ht ?_
    rw [show s.next.cursor.second? = some u from congrArg (fun ahead => ahead.tail.head?) h.next.ahead]
    simpa using hu
  refine ⟨header, ?_⟩
  rw [Reading.header, Header.read, Header.readOn_eq, hstep]
  dsimp only
  rw [Header.readOn_eq, hnone]
  rfl

/-- A name without type arguments and qualifiers behind it is the name of the member. -/
theorem At.memberName (h : s.At (t :: rest) names) (hangle : t.isPunctuation "<" = false)
    (hdot : t.isPunctuation "." = false) (name : Token) : s.memberName name = ((name, false), s) := by
  have harguments : s.cursor.skipTypeArguments = s.cursor := by
    rw [Cursor.skipTypeArguments, Cursor.typeArguments?, Cursor.eat?, show s.cursor.sees "<" = false from
      (h.sees "<").trans hangle]
    rfl
  rw [Reading.memberName, Cursor.qualifiedMember]
  simp only [harguments, show s.cursor.sees "." = false from (h.sees ".").trans hdot, Bool.false_eq_true,
    ↓reduceDIte]

/-- The declarators of a field begin behind its type and name. -/
theorem At.typedMember (h : s.At (type ++ identifier "_f" :: mark "=" :: rest) names) (htype : TypeText type)
    (place : Place) (header : Header) :
    ∃ u, Reading.typedMember place header s = fields place header (identifier "_f") .field u ∧
      u.At (mark "=" :: rest) names := by
  obtain ⟨t, inner, rfl, ht, -⟩ := htype.exists_cons
  have href : s.eatKeyword? "ref" = none := h.eatKeyword_none _ (not_isKeyword_of_isIdentifier ht _)
  obtain ⟨isVar, c, hread, hc⟩ := htype.type?_append (y := identifier "_f") (by nofun) s.cursor.before
    (mark "=" :: rest)
  have hread' : s.type? = some (isVar, { s with cursor := c }) := by
    rw [Reading.type?, show s.cursor = ⟨s.cursor.before, t :: inner ++ identifier "_f" :: mark "=" :: rest⟩ from
      congrArg (Cursor.mk s.cursor.before) h.ahead, hread]
    rfl
  have hu : Reading.At (identifier "_f" :: mark "=" :: rest) names { s with cursor := c } :=
    ⟨hc, h.names, h.errors, h.moving⟩
  generalize { s with cursor := c } = u at hread' hu
  refine ⟨u.next, ?_, hu.next⟩
  rw [Reading.typedMember]
  simp only [href, Option.elim, hread', hu.seesKeyword, hu.eatKeyword_none "operator" rfl, hu.name rfl]
  rw [show ((identifier "_f").isKeyword "this" && u.cursor.seesSecond "[") = false from rfl]
  simp only [Bool.false_eq_true, ↓reduceIte, namedMember, hu.next.memberName rfl rfl, hu.next.sees]
  rfl

/-- The second token of the field is part of its type or its name. -/
theorem exists_second (rest : List Token) (htype : TypeText type) :
    ∃ t u behind, type ++ identifier "_f" :: rest = t :: u :: behind ∧ t.isIdentifier ∧ u.kind ≠ .keyword ∧
      u.isPunctuation "(" = false := by
  obtain ⟨t, inner, rfl, ht, -⟩ := htype.exists_cons
  cases inner with
  | nil => exact ⟨t, _, _, rfl, ht, nofun, rfl⟩
  | cons u inner =>
    obtain ⟨hkind, hparen⟩ := htype.second_mark
    exact ⟨t, u, _, rfl, ht, by rw [hkind]; nofun, hparen⟩

/-- The declarators of a private field begin behind its type and name. -/
theorem At.member (h : s.At (keyword "private" :: (type ++ identifier "_f" :: mark "=" :: rest)) names)
    (htype : TypeText type) (place : Place) :
    ∃ header u, Reading.member TypeDeclaration.read place s = fields place header (identifier "_f") .field u ∧
      u.At (mark "=" :: rest) names := by
  obtain ⟨t, second, behind, heq, ht, hsecond, hparen⟩ := exists_second (mark "=" :: rest) htype
  obtain ⟨header, hheader⟩ := Reading.At.header_private (heq ▸ h) ht hsecond
  obtain ⟨u, hread, hu⟩ := h.next.typedMember htype place header
  refine ⟨header, u, ?_, hu⟩
  have hnext := h.next
  rw [heq] at hnext
  have hkind : t.kind = .identifier := eq_of_beq ht
  have hdeclaration : s.next.cursor.seesTypeDeclaration = false := by
    rw [Cursor.seesTypeDeclaration, show s.next.cursor.peek? = some t from hnext.peek]
    simp [hkind]
  have hcall : s.next.cursor.seesSecond "(" = false := by
    rw [Cursor.seesSecond, show s.next.cursor.second? = some second from
      congrArg (fun ahead => ahead.tail.head?) hnext.ahead]
    exact hparen
  rw [Reading.member, hheader]
  simp only [hnext.peek, not_isKeyword_of_isIdentifier ht, not_isPunctuation_of_isIdentifier ht, hdeclaration, hcall,
    Bool.or_self, Bool.and_false, Bool.false_eq_true, ↓reduceIte, hread]

theorem At.skipGroupAt (h : s.At (t :: rest) names) (opener : String) (ht : t.isPunctuation opener = false) :
    s.skipGroupAt opener = s := by
  rw [Reading.skipGroupAt, h.sees, ht]
  rfl

theorem At.skipValue {statement : StatementReader} {scope : ScopeId} (h : s.At (mark "=" :: rest) names) :
    skipValue statement scope s = skipExpression statement scope [","] s.next := by
  rw [Reading.skipValue, h.eat "=" rfl]

/-- The field ends with the `;` behind its value. -/
theorem At.fields (h : s.At (mark "=" :: (creation type arguments ++ mark ";" :: rest)) names)
    (htype : TypeText type) (harguments : Plain arguments)
    (hcomma : ∀ t ∈ outermost 0 type, t.isPunctuation "," = false) (place : Place) (header : Header) (name : Token)
    (kind : DeclarationKind) :
    ∃ u, Reading.fields place header name kind s = .complete u ∧ u.At rest (names ++ [name.identifierName]) := by
  let d := s.newGroup.2.declareMember place header name kind (some { group := s.newGroup.1, index := 0 })
  have hd : d.At (mark "=" :: (creation type arguments ++ mark ";" :: rest)) (names ++ [name.identifierName]) :=
    h.newGroup.declareMember ..
  have hvalue : (skipExpression Statement.read place.scope [","] d.next).At (mark ";" :: rest)
      (names ++ [name.identifierName]) := skipExpression_creation hd.next htype harguments hcomma
  have hround : fieldRound place header kind s.newGroup.1 ((name, 0), s.newGroup.2) =
      .done (.complete (skipExpression Statement.read place.scope [","] d.next).next) := by
    rw [fieldRound]
    simp only [show s.newGroup.2.declareMember place header name kind (some { group := s.newGroup.1, index := 0 }) = d
      from rfl, hd.skipGroupAt "[" rfl, hd.skipValue, hvalue.eat_none "," rfl, hvalue.eat ";" rfl]
  exact ⟨_, rounds_of_done hround, hvalue.next⟩

/-- A comma of the type ends the value, and the field is malformed. -/
theorem fields_split (h : s.At (mark "=" :: (creation type arguments ++ rest)) names) (htype : TypeText type)
    (hcomma : ∃ t ∈ outermost 0 type, t.isPunctuation ",") (place : Place) (header : Header) (name : Token)
    (kind : DeclarationKind) : ∃ u, Reading.fields place header name kind s = .malformed u ∧ s.Flawed u := by
  obtain ⟨front, comma, behind, rfl, hmark, hopen, hclose, hfront, hbehind, hnone⟩ := exists_split htype.nested hcomma
  let d := s.newGroup.2.declareMember place header name kind (some { group := s.newGroup.1, index := 0 })
  have hd : d.At (mark "=" :: (creation (front ++ comma :: behind) arguments ++ rest))
      (names ++ [name.identifierName]) := h.newGroup.declareMember ..
  have hbefore {t : Token} (ht : t ∈ front) := List.mem_append_left (comma :: behind) ht
  -- The first value ends at the comma, so that `behind` begins with what should be the name of a declarator.
  let left := comma :: (behind ++ mark "(" :: (arguments ++ [mark ")"] ++ rest))
  let v := (d.next.past [keyword "new"] (front ++ left)).past front left
  have hvalue : skipExpression Statement.read place.scope [","] d.next = v := by
    refine skipExpression_split ?_ hfront
      (fun t ht => ⟨htype.not_isPunctuation (hbefore ht) rfl, htype.not_isPunctuation (hbefore ht) rfl⟩) hnone hmark
    rw [hd.next.ahead, creation]
    simp only [List.cons_append, List.append_assoc, List.nil_append]
  have hfirst : skipValue Statement.read place.scope (d.skipGroupAt "[") = v := by
    rw [hd.skipGroupAt "[" rfl, hd.skipValue, hvalue]
  have hsize : v.size ≤ s.newGroup.2.size := by
    have hs : v.ahead <:+ s.newGroup.2.ahead := by
      rw [h.newGroup.ahead, creation]
      refine ⟨mark "=" :: keyword "new" :: front, ?_⟩
      simp only [v, left, past, ahead, List.cons_append, List.append_assoc, List.nil_append]
    exact hs.length_le
  have hclosed : unmatched (comma :: behind) = some [] :=
    (unmatched_of_other (Bool.eq_false_iff.mp hopen) (Bool.eq_false_iff.mp hclose)).trans hbehind
  have hahead : v.ahead = (comma :: behind) ++ mark "(" :: (arguments ++ [mark ")"] ++ rest) := rfl
  obtain ⟨u, hread, hflawed⟩ := fieldRound_comma place header kind s.newGroup.1 hfirst hahead hmark h.moving hsize
    fun {more t} name index hmore hlength ht hmoving => by
      have htext {t : Token} (ht : t ∈ more) : t ∈ front ++ comma :: behind :=
        List.mem_append_right _ (hmore.mem ht)
      exact fieldRounds_malformed place header kind s.newGroup.1 (Cursor.exists_unmatched_of_suffix ⟨_, hclosed⟩ hmore)
        (fun t ht => ⟨htype.not_isPunctuation (htext ht) rfl, htype.not_isPunctuation (htext ht) rfl⟩) ht hmoving name
        index
  exact ⟨u, hread, hflawed.errors, hflawed.moving, hflawed.size⟩

/-! ### The method and its local -/

theorem At.type_word (h : s.At (t :: u :: rest) names) (ht : t.isName || t.isBuiltInType)
    (hparen : t.isPunctuation "(" = false) (hu : u.kind ≠ .punctuation) :
    ∃ isVar, s.cursor.type? = some (isVar, s.next.cursor) := by
  obtain ⟨⟨before, ahead⟩, outline, errors, stalled⟩ := s
  cases (show ahead = t :: u :: rest from h.ahead)
  exact Token.type?_word ht hparen hu before rest

/-- A method without parameters is read with its block. -/
theorem At.methodRest (h : s.At (mark "(" :: mark ")" :: mark "\x7b" :: rest) names) (scope : ScopeId) (name : String) :
    ∃ method u, Reading.methodRest Statement.read scope name s = .complete (block Statement.read method u) ∧
      u.At (mark "\x7b" :: rest) names := by
  let method := (s.openScope .method (some name) scope).1
  let u := (s.openScope .method (some name) scope).2
  have hu : u.At (mark "(" :: mark ")" :: mark "\x7b" :: rest) names := h.openScope ..
  have hbody := hu.next.next
  have hparameters : parameterList Statement.read method .parameter .parameter u = u.next.next := by
    simp only [parameterList, hu.peek]
    rw [show closing (mark "(").text = ")" from rfl, hu.next.eat ")" rfl]
  have hcall : u.next.next.skipConstructorCall = u.next.next := by
    rw [skipConstructorCall, hbody.eat_none ":" rfl]
  have hconstraints : u.next.next.skipConstraints = u.next.next := by
    rw [skipConstraints, hbody.seesKeyword]
    rfl
  refine ⟨method, u.next.next, ?_, hbody⟩
  calc Reading.methodRest Statement.read scope name s
      = methodBody Statement.read method u.next.next := by
        rw [Reading.methodRest]
        simp only [show (s.openScope .method (some name) scope).2 = u from rfl, typeParameters, hu.eat_none "<" rfl,
          hu.sees]
        rw [if_pos (show (mark "(").isPunctuation "(" from rfl),
          show (s.openScope .method (some name) scope).1 = method from rfl, hparameters, hcall, hconstraints]
    _ = .complete (block Statement.read method u.next.next) := by
        rw [methodBody, hbody.sees]
        rfl

/-- A method `void M()` is recorded and read with its block. -/
theorem At.method (h : s.At (keyword "void" :: identifier "M" :: mark "(" :: mark ")" :: mark "\x7b" :: rest) names)
    (place : Place) :
    ∃ method u, Reading.member TypeDeclaration.read place s = .complete (block Statement.read method u) ∧
      u.At (mark "\x7b" :: rest) (names ++ ["M"]) := by
  have hheader : s.header = ({}, s) := by
    refine header_eq ?_
    simp only [Header.step?, show s.cursor.peek? = some (keyword "void") from h.peek]
    rfl
  have hdeclaration : s.cursor.seesTypeDeclaration = false := by
    rw [Cursor.seesTypeDeclaration, show s.cursor.peek? = some (keyword "void") from h.peek]
    rfl
  obtain ⟨isVar, hread⟩ := h.type_word rfl rfl (by rintro ⟨⟩)
  have htype : s.type? = some (isVar, s.next) := by
    rw [Reading.type?, hread]
    rfl
  have hname := h.next.next
  have hmember := hname.declareMember place {} (identifier "M") .method none
  obtain ⟨method, u, hrest, hu⟩ := hmember.methodRest place.scope "M"
  refine ⟨method, u, ?_, hu⟩
  calc Reading.member TypeDeclaration.read place s
      = Reading.typedMember place {} s := by
        rw [Reading.member, hheader]
        simp only [h.peek, hdeclaration]
        rfl
    _ = namedMember place {} (identifier "M") s.next.next := by
        rw [Reading.typedMember]
        simp only [h.eatKeyword_none "ref" rfl, Option.elim, htype, h.next.seesKeyword,
          h.next.eatKeyword_none "operator" rfl, h.next.name rfl]
        rfl
    _ = .complete (block Statement.read method u) := by
        rw [namedMember]
        simp only [hname.memberName rfl rfl, hname.sees]
        exact hrest

theorem skipWhile_eq_self {c : Cursor} {p : Token → Bool} (hpeek : c.peek? = some t) (hp : p t = false) :
    c.skipWhile p = c := by
  obtain ⟨before, _ | ⟨u, ahead⟩⟩ := c
  · cases hpeek
  · cases hpeek
    rw [Cursor.skipWhile, List.takeWhile_cons_of_neg (Bool.eq_false_iff.mp hp),
      List.dropWhile_cons_of_neg (Bool.eq_false_iff.mp hp)]
    rfl

/-- A declarator of a local with the value `new T(A)` is the last one if no comma of `T` ends the value. -/
theorem At.declarators (statement : StatementReader)
    (h : s.At (identifier "x" :: mark "=" :: (creation type arguments ++ mark ";" :: rest)) names)
    (htype : TypeText type) (harguments : Plain arguments)
    (hcomma : ∀ t ∈ outermost 0 type, t.isPunctuation "," = false) (scope : ScopeId) (isVar : Bool) :
    (Reading.declarators statement .statement scope isVar s).At rest (names ++ ["x"]) := by
  let v := s.newGroup.2.next
  have hv : v.At (mark "=" :: (creation type arguments ++ mark ";" :: rest)) names := h.newGroup.next
  let value := initializer statement scope [","] v.next
  have hvalue : value.2.At (mark ";" :: rest) names := skipExpression_creation hv.next htype harguments hcomma
  let u := value.2.declareLocal scope ⟨identifier "x", isVar⟩ .localVariable false value.1
    (some { group := s.newGroup.1, index := 0 })
  have hu : u.At (mark ";" :: rest) (names ++ ["x"]) :=
    hvalue.declareLocal (show (identifier "x").identifierName = "x" from rfl)
  have hread : declaratorValue statement scope v = value := by
    rw [declaratorValue, hv.eat "=" rfl]
  have hround : declaratorRound statement .statement scope isVar (some s.newGroup.1) (0, s.newGroup.2) =
      .done u.next := by
    have hlocal : value.2.declareLocal scope ⟨identifier "x", isVar⟩
        (if LocalContext.statement = .constant then .constant else .localVariable) false value.1
        ((some s.newGroup.1).map fun group => { group, index := 0 }) = u := rfl
    rw [declaratorRound]
    simp only [h.newGroup.name rfl, show s.newGroup.2.next = v from rfl, hread, hlocal, hu.eat_none "," rfl,
      endDeclaration, hu.eat ";" rfl]
    rfl
  rw [show Reading.declarators statement .statement scope isVar s = u.next from rounds_of_done hround]
  exact hu.next

/-- The local ends with the `;` behind its value. -/
theorem At.statement
    (h : s.At (keyword "var" :: identifier "x" :: mark "=" :: (creation type arguments ++ mark ";" :: rest)) names)
    (htype : TypeText type) (harguments : Plain arguments)
    (hcomma : ∀ t ∈ outermost 0 type, t.isPunctuation "," = false) (scope : ScopeId) :
    (Statement.read scope s).At rest (names ++ ["x"]) := by
  obtain ⟨isVar, hread⟩ := h.type_word rfl rfl (by rintro ⟨⟩)
  have hpeek : s.cursor.peek? = some (keyword "var") := h.peek
  have hname : s.next.cursor.name? = some (identifier "x", s.next.next.cursor) := by
    rw [Cursor.name?, show s.next.cursor.peek? = some (identifier "x") from h.next.peek]
    rfl
  have hfunction : s.cursor.localFunctionName? = none := by
    have hangle : s.next.next.cursor.typeArguments? = none := by
      rw [Cursor.typeArguments?, Cursor.eat?, show s.next.next.cursor.sees "<" = false from h.next.next.sees "<"]
      rfl
    rw [Cursor.localFunctionName?, skipWhile_eq_self hpeek rfl, hread]
    simp only [hname, hangle, show s.next.next.cursor.sees "(" = false from h.next.next.sees "("]
    rfl
  have hlocal : s.cursor.localDeclaration? .statement = some (.type isVar, s.next.cursor) := by
    have hsecond : s.cursor.seesSecond "(" = false := h.next.sees "("
    have hassign : s.next.cursor.seesSecond "=" = true := h.next.next.sees "="
    have hseesName : s.next.cursor.seesName = true := by
      rw [Cursor.seesName, show s.next.cursor.peek? = some (identifier "x") from h.next.peek]
      rfl
    rw [Cursor.localDeclaration?, skipWhile_eq_self hpeek rfl, hsecond, Bool.and_false, if_neg Bool.false_ne_true,
      show s.cursor.sees "(" = false from h.sees "("]
    simp only [Bool.false_and, Bool.false_eq_true, ↓reduceIte, Cursor.declaredType?, hread, hassign, hseesName,
      Bool.true_or, Bool.and_self]
  have hdeclarators := h.next.declarators Statement.read htype harguments hcomma scope isVar
  rw [Statement.read_eq h.moving, statementAt]
  simp only [h.peek]
  show (declarationOrExpression Statement.read scope s).At rest (names ++ ["x"])
  rw [declarationOrExpression, hfunction]
  simp only [localDeclarationOr, hlocal]
  exact hdeclarators

/-- The block of the method holds nothing but the local. -/
theorem At.block {rest : List Token}
    (h : s.At (mark "\x7b" :: keyword "var" :: identifier "x" :: mark "=" ::
      (creation type arguments ++ mark ";" :: mark "\x7d" :: rest)) names)
    (htype : TypeText type) (harguments : Plain arguments)
    (hcomma : ∀ t ∈ outermost 0 type, t.isPunctuation "," = false) (parent : ScopeId) :
    (Reading.block Statement.read parent s).At rest (names ++ ["x"]) := by
  let scope := (s.next.openScope .block none parent).1
  let u := (s.next.openScope .block none parent).2
  have hu : u.At (keyword "var" :: identifier "x" :: mark "=" ::
      (creation type arguments ++ mark ";" :: mark "\x7d" :: rest)) names := h.next.openScope ..
  have hv : (Statement.read scope u).At (mark "\x7d" :: rest) (names ++ ["x"]) :=
    hu.statement htype harguments hcomma scope
  have hless : (Statement.read scope u).size < u.size := by
    rw [hu.size, hv.size]
    simp only [creation, List.length_cons, List.length_append]
    omega
  have hround : blockRound Statement.read s.position scope u = .again (Statement.read scope u) := by
    rw [blockRound, hu.peek, ← progress_of_size_lt hless]
    rfl
  have hblock : Reading.block Statement.read parent s = (Statement.read scope u).next := by
    refine (rounds_of_again hround hless).trans (rounds_of_done ?_)
    rw [blockRound, hv.peek]
    rfl
  rw [hblock]
  exact hv.next

/-! ### The class -/

/-- A round of the class body that reads a member. -/
theorem classBody_of_member {read : Reading} (h : s.At (t :: rest) names) (hclose : t.isPunctuation "\x7d" = false)
    (hsemi : t.isPunctuation ";" = false)
    (hread : (Reading.member TypeDeclaration.read ⟨1, .classType⟩ s).settle = read) (hless : read.size < s.size) :
    classBody s = classBody read := by
  have hround : typeBodyRound TypeDeclaration.read (mark "\x7b").start ⟨1, .classType⟩ s = .again read := by
    subst hread
    exact typeBodyRound_of_size_lt h.peek hclose hsemi hless _
  exact (classBody_of_again h.moving hround).1

/-- The class is read to its end if no comma of the type ends a value. -/
theorem At.restOfFile (h : s.At (creationBody type arguments ++ [mark "\x7d"]) names) (htype : TypeText type)
    (harguments : Plain arguments) (hcomma : ∀ t ∈ outermost 0 type, t.isPunctuation "," = false) :
    (Reading.restOfFile (classBody s)).At [] (names ++ ["_f"] ++ ["M"] ++ ["x"]) := by
  simp only [creationBody, List.cons_append, List.append_assoc, List.nil_append] at h
  obtain ⟨header, u, hfield, hu⟩ := h.member htype ⟨1, .classType⟩
  obtain ⟨v, hdeclarators, hv⟩ := hu.fields htype harguments hcomma ⟨1, .classType⟩ header (identifier "_f") .field
  obtain ⟨method, w, hmethod, hw⟩ := hv.method ⟨1, .classType⟩
  have hblock := hw.block htype harguments hcomma method
  have hs : classBody s = classBody v := by
    refine classBody_of_member h rfl rfl (by rw [hfield, hdeclarators]; rfl) ?_
    rw [h.size, hv.size]
    simp only [creation, List.length_cons, List.length_append]
    omega
  have hv' : classBody v = classBody (Reading.block Statement.read method w) := by
    refine classBody_of_member hv rfl rfl (by rw [hmethod]; rfl) ?_
    rw [hv.size, hblock.size]
    simp only [List.length_cons, List.length_append]
    omega
  rw [hs, hv', restOfFile_closing hblock.ahead]
  exact hblock.next

/-- A comma of the type that ends the value of the field leaves a defect. -/
theorem errors_of_split (h : s.At (creationBody type arguments ++ [mark "\x7d"]) names) (htype : TypeText type)
    (hcomma : ∃ t ∈ outermost 0 type, t.isPunctuation ",") : (restOfFile (classBody s)).errors ≠ #[] := by
  simp only [creationBody, List.cons_append, List.append_assoc, List.nil_append] at h
  obtain ⟨header, u, hfield, hu⟩ := h.member htype ⟨1, .classType⟩
  obtain ⟨v, hdeclarators, hv⟩ := fields_split hu htype hcomma ⟨1, .classType⟩ header (identifier "_f") .field
  have hpush {errors : Array StructureError} (e : StructureError) (_ : errors ≠ #[]) : errors.push e ≠ #[] :=
    Array.push_ne_empty
  have hsound : v.Sound (v.cursor.before.reverse ++ v.cursor.ahead) (· ≠ #[]) := ⟨rfl, hv.moving, hv.errors⟩
  obtain ⟨hrecover, hle⟩ := hsound.recover hpush
  have hs : classBody s = classBody v.recover := by
    refine classBody_of_member h rfl rfl (by rw [hfield, hdeclarators]; rfl) ?_
    refine Nat.lt_of_le_of_lt (Nat.le_trans hle hv.size) ?_
    rw [h.size, hu.size]
    simp only [List.length_cons, List.length_append]
    omega
  rw [hs]
  exact ((hrecover.classBody hpush).1.restOfFile hpush).errors

end Reading

open Reading

namespace CompilationUnit

/-- The class is read without a defect and with its four names if and only if the type has no comma outside its
parentheses and square brackets: angle brackets do not protect a comma. -/
theorem creation_iff {type arguments tokens : List Token} (htype : TypeText type) (harguments : Plain arguments)
    (htokens : List.Forall₂ Token.Alike (classFile (creationBody type arguments)) tokens) :
    (ofTokens tokens).errors = [] ∧ (ofTokens tokens).entries.map (·.name) = ["C", "_f", "M", "x"] ↔
      ∀ t ∈ outermost 0 type, t.isPunctuation "," = false := by
  obtain ⟨hentries, hdefects⟩ := entries_of_alike htokens
  have hstart : (insideClass (creationBody type arguments ++ [mark "\x7d"])).At
      (creationBody type arguments ++ [mark "\x7d"]) ["C"] := ⟨rfl, rfl, rfl, rfl⟩
  rw [← hentries, ofTokens_classFile]
  rw [ofTokens_classFile] at hdefects
  constructor
  · rintro ⟨herrors, -⟩ t ht
    refine Bool.eq_false_iff.mpr fun hcomma => errors_of_split hstart htype ⟨t, ht, hcomma⟩ ?_
    rw [herrors] at hdefects
    exact Array.toList_eq_nil_iff.mp (List.map_eq_nil_iff.mp hdefects)
  · intro hcomma
    have hend := hstart.restOfFile htype harguments hcomma
    rw [hend.errors] at hdefects
    exact ⟨List.map_eq_nil_iff.mp hdefects.symm, hend.names⟩

/-- The tokens of the type `Name<A, …>` whose type arguments are single names. -/
private def generic (name : String) (inner : List Token) : List Token :=
  identifier name :: mark "<" :: (inner ++ [mark ">"])

/-- The comma of `List<(int, int)>` stands inside parentheses. -/
theorem creation_list_of_pairs :
    TypeText (generic "List" [mark "(", keyword "int", mark ",", keyword "int", mark ")"]) ∧
      Plain [identifier "a", mark ",", identifier "b"] ∧
      (ofTokens (classFile (creationBody
        (generic "List" [mark "(", keyword "int", mark ",", keyword "int", mark ")"])
        [identifier "a", mark ",", identifier "b"]))).errors = [] := by
  have htype : TypeText (generic "List" [mark "(", keyword "int", mark ",", keyword "int", mark ")"]) := by
    decide +kernel
  have harguments : Plain [identifier "a", mark ",", identifier "b"] := ⟨rfl, by decide, by decide⟩
  exact ⟨htype, harguments, ((creation_iff htype harguments (alike_self _)).mpr (by decide)).1⟩

/-- The second type argument of `Dictionary<K, V>` is recorded as a field and as a local. -/
theorem creation_dictionary :
    TypeText (generic "Dictionary" [identifier "K", mark ",", identifier "V"]) ∧ Plain [] ∧
      (ofTokens (classFile (creationBody
        (generic "Dictionary" [identifier "K", mark ",", identifier "V"]) []))).errors ≠ [] ∧
      (ofTokens (classFile (creationBody
        (generic "Dictionary" [identifier "K", mark ",", identifier "V"]) []))).entries.map (·.name) =
          ["C", "_f", "V", "M", "x", "V"] :=
  ⟨by decide +kernel, ⟨rfl, nofun, .nil⟩, by decide +kernel, by decide +kernel⟩

end CompilationUnit

end CSharpStyle
