import CSharpStyle.Proofs.CoreGrammar.Statements

/-!
# Members of core programs

The mark behind the name tells a field, a property and a method apart, and nothing in front of it can be taken for
another kind of member.

* `Clean.typedMember`: behind its modifiers, type and name a member is a field, a property or a method.
* `Clean.field`, `Clean.property` and `Clean.method`: what is recorded of it.
-/

namespace CSharpStyle

open Token CoreGrammar

namespace CoreGrammar

/-- The tokens neither give a property its value nor end a type with a semicolon. -/
def Follows (rest : List Token) : Prop :=
  ∀ t ∈ rest.head?, t.isPunctuation "=" = false ∧ t.isPunctuation ";" = false

theorem follows_of_beginsWithWord {tokens : List Token} (h : BeginsWithWord tokens) : Follows tokens := by
  obtain ⟨t, rest, rfl, hkind⟩ := h
  intro u hu
  cases hu
  exact ⟨not_isPunctuation_of_kind hkind _, not_isPunctuation_of_kind hkind _⟩

theorem MemberHead.beginsWithWord (head : MemberHead) (rest : List Token) : BeginsWithWord (head.tokens ++ rest) := by
  have hword := CoreGrammar.beginsWithWord head.modifiers.chain head.type.kind_ne (head.name.token :: rest)
  simpa [tokens] using hword

theorem TypeFrame.beginsWithWord (frame : TypeFrame) (members rest : List Token) :
    BeginsWithWord (frame.tokens members ++ rest) := by
  have hword := CoreGrammar.beginsWithWord frame.modifiers.chain (by rintro ⟨⟩)
    (frame.name.token :: frame.braces.around members ++ rest)
  simpa [tokens] using hword

end CoreGrammar

namespace CoreGrammar

/-- The words `T n` are read as a parameter. -/
structure IsParameter (T name : Token) : Prop where
  type : T.isName || T.isBuiltInType
  unmodified : Reading.isParameterModifier T = false
  name : name.isName

theorem kind_ne_of_isName {t : Token} (h : t.isName) : t.kind ≠ .punctuation := by
  intro hkind
  simp [isName, isIdentifier, hkind] at h

theorem kind_ne_of_isType {t : Token} (h : t.isName || t.isBuiltInType) : t.kind ≠ .punctuation := by
  intro hkind
  simp [isName, isIdentifier, isBuiltInType, hkind] at h

/-- What is recorded of a parameter. -/
def parameterNamed (name : Token) : Declaration :=
  { name := name.identifierName, role := .parameter, kind := .parameter, position := name.start }

/-- The tokens of some parameters, and what is recorded of them. -/
inductive IsParameterList : List Token → List Declaration → Prop
  | single {T name : Token} (h : IsParameter T name) : IsParameterList [T, name] [parameterNamed name]
  | cons {T name : Token} (h : IsParameter T name) (comma : Mark ",") {tokens : List Token} {ds : List Declaration}
    (hrest : IsParameterList tokens ds) :
    IsParameterList (T :: name :: comma.token :: tokens) (parameterNamed name :: ds)

/-- What may stand between the parentheses of a method. -/
def AreParameters (tokens : List Token) (ds : List Declaration) : Prop :=
  tokens = [] ∧ ds = [] ∨ IsParameterList tokens ds

theorem IsParameterList.exists_cons {tokens : List Token} {ds : List Declaration} (h : IsParameterList tokens ds) :
    ∃ T rest, tokens = T :: rest ∧ T.kind ≠ .punctuation := by
  cases h with
  | single h | cons h => exact ⟨_, _, rfl, kind_ne_of_isType h.type⟩

end CoreGrammar

/-- The declarations in front of what else a scope holds. -/
def Contents.behind (ds : List Declaration) (c : Contents) : Contents := ds.foldr .declaration c

theorem Contents.record_behind (ds : List Declaration) (c : Contents) (scope : ScopeId) (o : Outline) :
    (c.behind ds).record scope o = c.record scope (ds.foldl (·.declare scope ·) o) := by
  rw [behind]
  induction ds generalizing o with
  | nil => rfl
  | cons d ds ih => exact ih _

namespace CoreGrammar.TypeWord

/-- A built-in type begins no declaration of a type. -/
theorem seesTypeDeclaration (T : TypeWord) {c : Cursor} (h : c.peek? = some T.token) :
    c.seesTypeDeclaration = false := by
  have hnot : ∀ word ∈ Keyword.builtInTypes,
      word ∉ ["class", "struct", "interface", "enum", "delegate", "record"] := by decide
  rw [Cursor.seesTypeDeclaration, h]
  cases T with
  | builtIn word span hword =>
    have hother := forall_builtIn hnot hword
    simp_all [token]
  | named name => rfl

theorem not_isParameterModifier (T : TypeWord) : Reading.isParameterModifier T.token = false := by
  have hnot : ∀ word ∈ Keyword.builtInTypes,
      word ∉ ["this", "ref", "out", "in", "params", "readonly"] := by decide
  cases T with
  | builtIn word span hword =>
    simpa [Reading.isParameterModifier, token, isIdentifier] using forall_builtIn hnot hword
  | named name => simp [Reading.isParameterModifier, token, Name.token, isIdentifier, name.text_ne]

end CoreGrammar.TypeWord

namespace Reading.Clean

variable {s : Reading} {rest : List Token} {o : Outline}

/-- Behind its modifiers, type and name a member is a field, a property or a method. -/
theorem typedMember (typeDeclaration : TypeReader) (head : MemberHead) {u : Token}
    (h : s.Clean (head.tokens ++ u :: rest) o) (place : Place) :
    ∃ v : Reading, v.Clean (u :: rest) o ∧
      member typeDeclaration place s = namedMember place ⟨head.modifiers.modifiers, false⟩ head.name.token v := by
  obtain ⟨T, modifiers, name⟩ := head
  simp only [MemberHead.tokens, List.append_assoc, List.cons_append, List.nil_append] at h
  obtain ⟨v, hheader, hv⟩ := h.header T.kind_ne (by rintro ⟨⟩) (T.isModifier name.token)
  have htype : v.type? = some (T.token.text == "var", v.next) := by
    rw [Reading.type?, hv.typeWord T.isName_or_isBuiltInType (T.isPunctuation _) fun _ _ => rfl]
    rfl
  have hname := hv.next
  refine ⟨v.next.next, hname.next, ?_⟩
  calc member typeDeclaration place s
      = Reading.typedMember place ⟨modifiers.modifiers, false⟩ v := by
        have hevent : T.token.isKeyword "event" = false := T.isKeyword rfl
        have himplicit : T.token.isKeyword "implicit" = false := T.isKeyword rfl
        have hexplicit : T.token.isKeyword "explicit" = false := T.isKeyword rfl
        have hcall : v.cursor.seesSecond "(" = false := hv.seesSecond "("
        rw [member, hheader]
        simp only [hv.toAt.peek, T.isPunctuation, T.seesTypeDeclaration hv.toAt.peek, hevent, himplicit, hexplicit,
          hcall, Bool.or_self, Bool.and_false, Bool.false_eq_true, ↓reduceIte]
    _ = namedMember place ⟨modifiers.modifiers, false⟩ name.token v.next.next := by
        rw [Reading.typedMember]
        simp only [hv.toAt.eatKeyword_none "ref" (T.isKeyword rfl), Option.elim, htype, hname.toAt.seesKeyword,
          hname.toAt.eatKeyword_none "operator" rfl, hname.toAt.name (t := name.token) rfl]
        rfl

/-! ### Fields and properties -/

theorem declareMember (h : s.Clean rest o) (place : Place) (head : MemberHead) (kind : DeclarationKind)
    (group : Option GroupPlace) :
    (s.declareMember place ⟨head.modifiers.modifiers, false⟩ head.name.token kind group).Clean rest
      (o.declare place.scope { head.declaration kind place.owner with group }) :=
  h.declare _ _

/-- A field ends behind its name. -/
theorem field (typeDeclaration : TypeReader) (head : MemberHead) (semicolon : Mark ";")
    (h : s.Clean (head.tokens ++ semicolon.token :: rest) o) (place : Place) :
    (member typeDeclaration place s).settle.Clean rest
      ((Contents.grouped (head.declaration .field place.owner) .done).record place.scope o) := by
  obtain ⟨v, hv, hread⟩ := h.typedMember typeDeclaration head place
  obtain ⟨hgroup, hs⟩ := hv.newGroup
  let header : Header := ⟨head.modifiers.modifiers, false⟩
  let d := v.newGroup.2.declareMember place header head.name.token .field (some ⟨v.newGroup.1, 0⟩)
  have hd : d.Clean (semicolon.token :: rest) _ := hs.declareMember place head .field (some ⟨v.newGroup.1, 0⟩)
  have hround : fieldRound place header .field v.newGroup.1 ((head.name.token, 0), v.newGroup.2) =
      .done (.complete d.next) := by
    have hmember : v.newGroup.2.declareMember place header head.name.token .field (some ⟨v.newGroup.1, 0⟩) = d := rfl
    rw [fieldRound]
    simp only [hmember, hd.toAt.skipGroupAt "[" rfl, skipValue, hd.toAt.eat_none "=" rfl, hd.toAt.eat_none "," rfl,
      hd.toAt.eat ";" rfl]
  have hfields : fields place header head.name.token .field v = .complete d.next := rounds_of_done hround
  have hnamed : namedMember place header head.name.token v = .complete d.next := by
    rw [namedMember, hv.toAt.memberName rfl rfl]
    simp only [hv.toAt.sees]
    exact hfields
  rw [hread, hnamed, Contents.record, ← hgroup]
  exact hd.next

/-- An accessor without a body is skipped. -/
theorem accessor {word : String} (hword : word ∈ ["get", "set"]) (a : Accessor word)
    (h : s.Clean (a.tokens ++ rest) o) (opening : Position) (scope : ScopeId) :
    accessorRound opening scope s = .again s.next.next := by
  have hheader : s.header = ({}, s) :=
    header_eq (header_step_none h.toAt.peek rfl (by rw [h.second]; rfl))
  have hcontains : ["get", "set", "init", "add", "remove"].contains word = true := by
    have hall : ∀ word ∈ ["get", "set"], ["get", "set", "init", "add", "remove"].contains word = true := by decide
    exact hall word hword
  have hmark : Token.isPunctuation ⟨.identifier, word, a.span⟩ "\x7d" = false := rfl
  rw [accessorRound, hheader]
  simp only [h.toAt.peek, hmark, hcontains, h.next.toAt.eat ";" rfl, Bool.false_eq_true, ↓reduceIte]

/-- The list of accessors ends with its brace, unless an initializer follows. -/
theorem accessorRound_closing (closing : Mark "\x7d") (h : s.Clean (closing.token :: rest) o)
    (hrest : ∀ t ∈ rest.head?, t.isPunctuation "=" = false) (opening : Position) (scope : ScopeId) :
    accessorRound opening scope s = .done s.next := by
  have hheader : s.header = ({}, s) := by
    refine header_eq ?_
    simp only [Header.step?, show s.cursor.peek? = some closing.token from h.toAt.peek]
    rfl
  have hbrace : closing.token.isPunctuation "\x7d" = true := rfl
  have hvalue : s.next.eat? "=" = none := h.next.eat_none hrest
  rw [accessorRound, hheader]
  simp only [h.toAt.peek, hbrace, hvalue, ↓reduceIte]

theorem accessors (braces : Braces) (getter : Accessor "get") (setter : Accessor "set")
    (h : s.Clean (braces.around (getter.tokens ++ setter.tokens) ++ rest) o)
    (hrest : ∀ t ∈ rest.head?, t.isPunctuation "=" = false) (scope : ScopeId) :
    (Reading.accessors scope s).settle.Clean rest o := by
  let round := accessorRound s.position scope
  have hopening :
      s.Clean (braces.opening.token :: (getter.tokens ++ setter.tokens ++ [braces.closing.token] ++ rest)) o := h
  have hget : s.next.Clean (getter.tokens ++ (setter.tokens ++ braces.closing.token :: rest)) o := hopening.next
  have hset := hget.next.next
  have hclosing := hset.next.next
  have hread : rounds Reading.size round stall s.next = s.next.next.next.next.next.next :=
    calc rounds Reading.size round stall s.next
        = rounds Reading.size round stall s.next.next.next :=
          hget.rounds_again (hget.accessor (by decide) getter _ _) hset (by simp [Accessor.tokens])
      _ = rounds Reading.size round stall s.next.next.next.next.next :=
          hset.rounds_again (hset.accessor (by decide) setter _ _) hclosing (by simp [Accessor.tokens])
      _ = s.next.next.next.next.next.next :=
          rounds_of_done (hclosing.accessorRound_closing braces.closing hrest _ _)
  have hlist : Reading.accessors scope s = .complete (rounds Reading.size round stall s.next) := by
    rw [Reading.accessors, hopening.toAt.eat_none "=>" rfl]
    simp only [hopening.toAt.eat "\x7b" rfl]
    rfl
  rw [hlist, hread]
  exact hclosing.next

/-- A property is recorded in front of the scope of its accessors. -/
theorem property (typeDeclaration : TypeReader) (head : MemberHead) (braces : Braces) (getter : Accessor "get")
    (setter : Accessor "set")
    (h : s.Clean (head.tokens ++ (braces.around (getter.tokens ++ setter.tokens) ++ rest)) o) (hrest : Follows rest)
    (place : Place) :
    (member typeDeclaration place s).settle.Clean rest
      ((Contents.declaration (head.declaration .property place.owner)
        (.scope .method (some head.name.declared) none .done .done)).record place.scope o) := by
  obtain ⟨v, hv, hread⟩ := h.typedMember typeDeclaration head place
  have hd := hv.declareMember place head .property none
  obtain ⟨hscope, hs⟩ := hd.openScope .method (some head.name.declared) place.scope
  have hnamed : namedMember place ⟨head.modifiers.modifiers, false⟩ head.name.token v =
      memberWithAccessors place ⟨head.modifiers.modifiers, false⟩ head.name.token false .property v := by
    rw [namedMember, hv.toAt.memberName rfl rfl]
    simp only [hv.toAt.sees]
    rfl
  rw [hread, hnamed]
  exact hs.accessors braces getter setter (fun t ht => (hrest t ht).1) _

/-! ### Methods -/

/-- How the parameters of a method are recorded. -/
def methodParameters : ParameterList := ⟨.parameter, .parameter, .unspecified, ")"⟩

/-- Only marks begin attributes. -/
theorem skipAttributes_eq_self {T : Token} (h : s.Clean (T :: rest) o) (hT : T.kind ≠ .punctuation) :
    s.cursor.skipAttributes = s.cursor := by
  refine Cursor.skipMany_of_none ?_
  show (if s.cursor.sees "[" then some _ else none) = none
  rw [if_neg]
  rw [show s.cursor.sees "[" = _ from h.toAt.sees "[", not_isPunctuation_of_kind hT]
  exact Bool.false_ne_true

/-- A parameter in front of a mark other than `=`. -/
theorem parameter (statement : StatementReader) {T name : Token} (hp : IsParameter T name) {mark : String}
    (m : Mark mark) (h : s.Clean (T :: name :: m.token :: rest) o) (hm : m.token.isPunctuation "=" = false)
    (method : ScopeId) :
    ∃ u : Reading, u.Clean (m.token :: rest) (o.declare method (parameterNamed name)) ∧
      (∀ v, u.eat? "," = some v → parameterRound statement method methodParameters s = .again v) ∧
      ∀ v, u.eat? "," = none → u.eat? ")" = some v → parameterRound statement method methodParameters s = .done v := by
  have hmark (mark : String) : T.isPunctuation mark = false :=
    not_isPunctuation_of_kind (kind_ne_of_isType hp.type) mark
  have hmove : s.move (·.skipAttributes.skipWhile isParameterModifier) = s := by
    rw [move, h.skipAttributes_eq_self (kind_ne_of_isType hp.type), skipWhile_eq_self h.toAt.peek hp.unmodified]
  have htype : s.type? = some (T.text == "var", s.next) := by
    rw [Reading.type?, h.typeWord hp.type (hmark _) fun _ _ => not_isPunctuation_of_kind (kind_ne_of_isName hp.name) _]
    rfl
  let u := s.next.next.declareName method name .parameter .parameter .unspecified
  have hu : u.Clean (m.token :: rest) _ := h.next.next.declare method _
  have hvalue : skipValue statement method u = u := by
    rw [skipValue, hu.toAt.eat_none "=" hm]
  have hname : s.next.name? = some (name, s.next.next) := h.next.toAt.name hp.name
  have hdeclared : s.next.next.declareName method name methodParameters.role methodParameters.kind
      methodParameters.accessibility = u := rfl
  refine ⟨u, hu, fun v hcomma => ?_, fun v hcomma hparen => ?_⟩
  · rw [parameterRound, hmove]
    simp only [htype, hname, hdeclared, hvalue, hcomma]
  · have hcloser : u.eat? methodParameters.closer = some v := hparen
    rw [parameterRound, hmove]
    simp only [htype, hname, hdeclared, hvalue, hcomma, hcloser]

/-- The parameters from one of them on, up to the parenthesis behind them. -/
theorem parameterRounds (statement : StatementReader) {tokens : List Token} {ds : List Declaration}
    (hps : IsParameterList tokens ds) (closing : Mark ")") (method : ScopeId)
    (h : s.Clean (tokens ++ closing.token :: rest) o) :
    (rounds Reading.size (parameterRound statement method methodParameters) stall s).Clean rest
      (ds.foldl (·.declare method ·) o) := by
  induction hps generalizing s o with
  | single hp =>
    obtain ⟨u, hu, -, hround⟩ := h.parameter statement hp closing rfl method
    rw [rounds_of_done (hround u.next (hu.toAt.eat_none "," rfl) (hu.toAt.eat ")" rfl))]
    exact hu.next
  | cons hp comma hrest ih =>
    obtain ⟨u, hu, hround, -⟩ := Clean.parameter statement hp comma h rfl method
    rw [h.rounds_again (hround u.next (hu.toAt.eat "," rfl)) hu.next]
    · exact ih hu.next
    · simp
      omega

/-- A list of parameters ends with its opening parenthesis, or goes on with the first parameter. -/
theorem parameterList_eq (statement : StatementReader) (opening : Mark "(") (h : s.Clean (opening.token :: rest) o)
    (method : ScopeId) :
    parameterList statement method .parameter .parameter s =
      (s.next.eat? ")").getD (rounds Reading.size (parameterRound statement method methodParameters) stall s.next) := by
  have hcloser : closing opening.token.text = ")" := rfl
  have haccessibility : (if Role.parameter = .publicMember then Accessibility.isPublic else .unspecified) =
      .unspecified := rfl
  have hlist : (⟨.parameter, .parameter, .unspecified, ")"⟩ : ParameterList) = methodParameters := rfl
  rw [parameterList, h.toAt.peek]
  simp only [hcloser, haccessibility, hlist]
  cases s.next.eat? ")" <;> rfl

/-- A list of parameters is recorded in order. -/
theorem parameters (parentheses : Parentheses) {tokens : List Token} {ds : List Declaration}
    (hps : AreParameters tokens ds) (h : s.Clean (parentheses.around tokens ++ rest) o) (method : ScopeId) :
    (parameterList Statement.read method .parameter .parameter s).Clean rest (ds.foldl (·.declare method ·) o) := by
  have hopening : s.Clean (parentheses.opening.token :: (tokens ++ [parentheses.closing.token] ++ rest)) o := h
  have hinner := hopening.next
  rw [List.append_assoc] at hinner
  rw [hopening.parameterList_eq]
  rcases hps with ⟨rfl, rfl⟩ | hps
  · have hclosing : s.next.Clean (parentheses.closing.token :: rest) o := hinner
    rw [hclosing.toAt.eat ")" rfl]
    exact hclosing.next
  · have hparen : s.next.eat? ")" = none := by
      obtain ⟨T, more, rfl, hkind⟩ := hps.exists_cons
      exact hinner.toAt.eat_none ")" (not_isPunctuation_of_kind hkind ")")
    rw [hparen]
    exact hinner.parameterRounds Statement.read hps parentheses.closing method

/-- In front of its parameters a method opens a scope. -/
theorem methodRest_eq (statement : StatementReader) (opening : Mark "(") (h : s.Clean (opening.token :: rest) o)
    (scope : ScopeId) (name : String) :
    Reading.methodRest statement scope name s = methodBody statement (s.openScope .method (some name) scope).1
      (parameterList statement (s.openScope .method (some name) scope).1 .parameter .parameter
        (s.openScope .method (some name) scope).2).skipConstructorCall.skipConstraints := by
  obtain ⟨-, hs⟩ := h.openScope .method (some name) scope
  rw [Reading.methodRest]
  simp only [typeParameters, hs.toAt.eat_none "<" rfl, hs.toAt.sees]
  rw [if_pos (show opening.token.isPunctuation "(" from rfl)]

/-- Behind its name a method opens a scope with its parameters and its block. -/
theorem methodRest (parentheses : Parentheses) {tokens : List Token} {ds : List Declaration}
    (hps : AreParameters tokens ds) (braces : Braces) (body : Statements)
    (h : s.Clean (parentheses.around tokens ++ (braces.around body.tokens ++ rest)) o) (scope : ScopeId)
    (name : String) :
    (Reading.methodRest Statement.read scope name s).settle.Clean rest
      ((Contents.scope .method (some name) none
        ((Contents.scope .block none none body.contents .done).behind ds) .done).record scope o) := by
  let method := (o.addScope .method (some name) none scope).1
  obtain ⟨hmethod, hs⟩ := h.openScope .method (some name) scope
  have hopening : Clean (parentheses.opening.token :: _) _ _ := h
  have hbody := hs.parameters parentheses hps method
  let v := parameterList Statement.read method .parameter .parameter (s.openScope .method (some name) scope).2
  have hbrace : v.Clean (braces.opening.token :: _) _ := hbody
  have hcall : v.skipConstructorCall = v := by
    rw [skipConstructorCall, hbrace.toAt.eat_none ":" rfl]
  have hconstraints : v.skipConstraints = v := by
    rw [skipConstraints, hbrace.toAt.seesKeyword]
    rfl
  have hread : Reading.methodRest Statement.read scope name s = .complete (block Statement.read method v) :=
    calc Reading.methodRest Statement.read scope name s
        = methodBody Statement.read method v := by
          rw [hopening.methodRest_eq, hmethod]
          show methodBody Statement.read method v.skipConstructorCall.skipConstraints = _
          rw [hcall, hconstraints]
      _ = .complete (block Statement.read method v) := by
          rw [methodBody, hbrace.toAt.sees]
          rfl
  rw [hread, Contents.record, Contents.record_behind]
  exact Statements.Reads.block body.reads hbody method

end Reading.Clean

/-! ### Methods of core programs -/

namespace CoreGrammar

theorem Parameter.isParameter (p : Parameter) : IsParameter p.type.token p.name.token :=
  ⟨p.type.isName_or_isBuiltInType, p.type.not_isParameterModifier, rfl⟩

namespace Parameters

theorem isParameterList (first : Parameter) (others : List (Mark "," × Parameter)) :
    IsParameterList (some first others).tokens ((some first others).list.map (·.declaration)) := by
  induction others generalizing first with
  | nil => exact .single first.isParameter
  | cons other others ih => exact .cons first.isParameter other.1 (ih other.2)

theorem areParameters (ps : Parameters) : AreParameters ps.tokens (ps.list.map (·.declaration)) := by
  cases ps with
  | none => exact .inl ⟨rfl, rfl⟩
  | some first others => exact .inr (isParameterList first others)

theorem contents_eq (ps : Parameters) (c : Contents) : ps.contents c = c.behind (ps.list.map (·.declaration)) := by
  rw [contents, Contents.behind, List.foldr_map]

end Parameters

end CoreGrammar

namespace Reading.Clean

/-- A method is recorded in front of its scope. -/
theorem method (typeDeclaration : TypeReader) (head : MemberHead) (parentheses : Parentheses) (ps : Parameters)
    (braces : Braces) (body : Statements)
    (h : s.Clean (head.tokens ++ (parentheses.around ps.tokens ++ (braces.around body.tokens ++ rest))) o)
    (place : Place) :
    (member typeDeclaration place s).settle.Clean rest
      ((Contents.declaration (head.declaration .method place.owner)
        (.scope .method (some head.name.declared) none (ps.contents (.scope .block none none body.contents .done))
          .done)).record place.scope o) := by
  obtain ⟨v, hv, hread⟩ := h.typedMember typeDeclaration head place
  have hd := hv.declareMember place head .method none
  have hnamed : namedMember place ⟨head.modifiers.modifiers, false⟩ head.name.token v =
      Reading.methodRest Statement.read place.scope head.name.declared
        (v.declareMember place ⟨head.modifiers.modifiers, false⟩ head.name.token .method none) := by
    rw [namedMember, hv.toAt.memberName rfl rfl]
    simp only [hv.toAt.sees]
    rfl
  rw [hread, hnamed, ps.contents_eq]
  exact hd.methodRest parentheses ps.areParameters braces body place.scope head.name.declared

end Reading.Clean

end CSharpStyle
