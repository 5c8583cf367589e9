import CSharpStyle.Proofs.ExplicitMembers.Syntax

/-!
# Reading explicit implementations

The name of an interface is read segment by segment. Behind its last dot comes the name of the member, from which the
reader goes on as for any member, or the word `this`, in front of which it stops: there nothing reads on.

* `Cursor.closeTypeArguments_typeList`: type arguments are read up to the bracket that closes them.
* `Cursor.exists_qualifiedMember`: the segments of a name are read one by one.
* `Clean.explicitMethod`, `Clean.explicitProperty` and `Clean.explicitIndexer`: what is read of the three kinds.
-/

namespace CSharpStyle

open Token Reading ExplicitMember
open CoreGrammar (Mark Word Brackets Parentheses Braces IsParameterList)

/-! ### Words -/

namespace ExplicitMember.TypeName

variable (T : TypeName)

theorem isName_or_isBuiltInType : (T.token.isName || T.token.isBuiltInType) = true := by
  cases T with
  | builtIn word span h => exact (CoreGrammar.TypeWord.builtIn word span h).isName_or_isBuiltInType
  | named name => rfl

theorem isPunctuation (mark : String) : T.token.isPunctuation mark = false :=
  not_isPunctuation_of_kind (CoreGrammar.kind_ne_of_isType T.isName_or_isBuiltInType) mark

theorem isKeyword {word : String} (h : Keyword.isBuiltInType word = false) : T.token.isKeyword word = false := by
  cases T with
  | builtIn word' span h' => exact (CoreGrammar.TypeWord.builtIn word' span h').isKeyword h
  | named name => rfl

theorem seesTypeDeclaration {c : Cursor} (h : c.peek? = some T.token) : c.seesTypeDeclaration = false := by
  cases T with
  | builtIn word span hword => exact (CoreGrammar.TypeWord.builtIn word span hword).seesTypeDeclaration h
  | named name => rw [Cursor.seesTypeDeclaration, h]; rfl

theorem header_eq_self {s : Reading} {i : Identifier} {rest : List Token} (h : s.ahead = T.token :: i.token :: rest) :
    s.header = ({}, s) := by
  have hpeek : s.cursor.peek? = some T.token := congrArg List.head? h
  have hsecond : s.cursor.second? = some i.token := congrArg (fun ahead => ahead.tail.head?) h
  refine header_eq ?_
  cases T with
  | builtIn word span hword =>
    rw [Header.step?_eq {} hpeek hsecond (by rintro ⟨⟩) (by rintro ⟨⟩)]
    exact if_neg (Bool.eq_false_iff.mp ((CoreGrammar.TypeWord.builtIn word span hword).isModifier _))
  | named name => exact header_step_none hpeek rfl (by rw [hsecond]; rfl)

end ExplicitMember.TypeName

namespace ExplicitMember

theorem Parameter.isParameterModifier_eq (p : Parameter) : isParameterModifier p.type.token = p.isScoped := by
  obtain ⟨T, name⟩ := p
  cases T with
  | builtIn word span h =>
    have hword : word ≠ "scoped" := by
      rintro rfl
      cases h
    exact (CoreGrammar.TypeWord.builtIn word span h).not_isParameterModifier.trans (beq_eq_false_iff_ne.mpr hword).symm
  | named type => rfl

theorem Parameter.isParameter {p : Parameter} (h : p.isScoped = false) :
    CoreGrammar.IsParameter p.type.token p.name.token :=
  ⟨p.type.isName_or_isBuiltInType, p.isParameterModifier_eq.trans h, rfl⟩

theorem Parameters.isParameterList (ps : Parameters) (h : ∀ p ∈ ps.list, p.isScoped = false) :
    IsParameterList ps.tokens ps.declared := by
  obtain ⟨first, others⟩ := ps
  obtain ⟨hfirst, hothers⟩ := List.forall_mem_cons.mp h
  induction others generalizing first with
  | nil => exact .single (Parameter.isParameter hfirst)
  | cons other others ih =>
    exact .cons (Parameter.isParameter hfirst) other.1
      (ih other.2 hothers (List.forall_mem_cons.mp hothers).1 (List.forall_mem_cons.mp hothers).2)

end ExplicitMember

/-! ### Names of interfaces -/

namespace Cursor

theorem isTypeArgumentToken_of_word {t : Token} (h : t.isName || t.isBuiltInType) : isTypeArgumentToken t := by
  obtain ⟨kind, text, span⟩ := t
  cases kind <;> simp_all [isTypeArgumentToken, isName, isBuiltInType, isIdentifier, or_comm]

/-- Type arguments are read to their end, inside one or more angle brackets. -/
theorem closeTypeArguments_typeList (a : TypeList) (depth : Nat) (before behind : List Token) :
    closeTypeArguments (depth + 1) before (a.tokens ++ behind) =
      closeTypeArguments (depth + 1) (a.tokens.reverse ++ before) behind := by
  induction a generalizing depth before behind with
  | done => rfl
  | word t ht rest ih =>
    have hmark := not_isPunctuation_of_kind (CoreGrammar.kind_ne_of_isType ht)
    rw [TypeList.tokens, List.cons_append, closeTypeArguments, hmark, hmark, isTypeArgumentToken_of_word ht]
    simp only [Bool.false_eq_true, ↓reduceIte, ih, List.reverse_cons, List.append_assoc, List.singleton_append]
  | mark text htext m rest ih =>
    have hangle : text ≠ "<" ∧ text ≠ ">" := by
      constructor <;> (rintro rfl; exact absurd htext (by decide))
    have hother : m.token.isPunctuation "<" = false ∧ m.token.isPunctuation ">" = false := by
      simpa [Mark.token, isPunctuation] using hangle
    have htoken : isTypeArgumentToken m.token := by simpa [isTypeArgumentToken, Mark.token] using htext
    rw [TypeList.tokens, List.cons_append, closeTypeArguments, hother.1, hother.2, htoken]
    simp only [Bool.false_eq_true, ↓reduceIte, ih, List.reverse_cons, List.append_assoc, List.singleton_append]
  | nested opening inner closing rest ihInner ihRest =>
    have hopen : opening.token.isPunctuation "<" = true := rfl
    have hclose : closing.token.isPunctuation "<" = false ∧ closing.token.isPunctuation ">" = true := ⟨rfl, rfl⟩
    have hdepth : ¬depth + 1 + 1 ≤ 1 := by omega
    simp only [TypeList.tokens, List.cons_append, List.append_assoc]
    rw [closeTypeArguments, if_pos hopen, ihInner, closeTypeArguments, hclose.1, hclose.2]
    simp only [Bool.false_eq_true, ↓reduceIte, hdepth, Nat.add_sub_cancel, ihRest, List.reverse_cons,
      List.reverse_append, List.append_assoc, List.cons_append, List.nil_append]

theorem skipTypeArguments_eq_self {c : Cursor} (h : c.sees "<" = false) : c.skipTypeArguments = c := by
  rw [skipTypeArguments, typeArguments?, eat?, h]
  rfl

/-- Type arguments are skipped. -/
theorem ahead_skipTypeArguments (a : TypeArguments) {c : Cursor} {t : Token} {behind : List Token}
    (h : c.ahead = a.tokens ++ t :: behind) (ht : t.isPunctuation "<" = false) :
    c.skipTypeArguments.ahead = t :: behind := by
  obtain ⟨before, ahead⟩ := c
  obtain rfl : ahead = a.tokens ++ t :: behind := h
  cases a with
  | none =>
    have hsees : sees ⟨before, t :: behind⟩ "<" = false := ht
    exact congrArg Cursor.ahead (skipTypeArguments_eq_self hsees)
  | some opening arguments closing =>
    have heat : eat? ⟨before, (TypeArguments.some opening arguments closing).tokens ++ t :: behind⟩ "<" =
        some ⟨opening.token :: before, arguments.tokens ++ closing.token :: t :: behind⟩ := by
      rw [eat?, if_pos (show sees _ "<" = true from rfl)]
      simp [next, TypeArguments.tokens]
    have hclose := closeTypeArguments_typeList arguments 0 (opening.token :: before) (closing.token :: t :: behind)
    rw [skipTypeArguments, typeArguments?, heat]
    simp only [hclose]
    rfl

variable {c : Cursor} {t : Token} {behind : List Token}

/-- One more segment is read behind a dot. -/
theorem qualifiedMember_of_name {dot : Mark "."} (h : c.skipTypeArguments.ahead = dot.token :: t :: behind)
    (ht : t.isName) (first : Token) (isExplicit : Bool) :
    qualifiedMember first isExplicit c = qualifiedMember t true c.skipTypeArguments.next.next := by
  have hdot : c.skipTypeArguments.sees "." = true := by rw [sees, peek?, h]; rfl
  have hpeek : c.skipTypeArguments.next.peek? = some t := by rw [peek?, next, h]; rfl
  rw [qualifiedMember]
  simp only [hdot, ↓reduceDIte, hpeek, ht, ↓reduceIte]

/-- The segments of a name are read one by one. -/
theorem exists_qualifiedMember (others : List (Mark "." × Identifier))
    (h : c.ahead = (others.flatMap fun other => [other.1.token, other.2.token]) ++ behind) (first : Token)
    (isExplicit : Bool) :
    ∃ last isExplicit' d, d.ahead = behind ∧
      qualifiedMember first isExplicit c = qualifiedMember last isExplicit' d := by
  induction others generalizing c first isExplicit with
  | nil => exact ⟨first, isExplicit, c, h, rfl⟩
  | cons other others ih =>
    have hself : c.skipTypeArguments = c := skipTypeArguments_eq_self (by rw [sees, peek?, h]; rfl)
    have hnext : c.next.next.ahead = (others.flatMap fun other => [other.1.token, other.2.token]) ++ behind := by
      simp only [next, h, List.flatMap_cons, List.cons_append, List.nil_append, List.tail_cons]
    obtain ⟨last, isExplicit', d, hd, hread⟩ := ih hnext other.2.token true
    refine ⟨last, isExplicit', d, hd, hread ▸ ?_⟩
    rw [qualifiedMember_of_name (c := c) (by rw [hself, h]; rfl) (show other.2.token.isName from rfl), hself]

/-- Behind the name of an interface and its dot comes the name of the member. -/
theorem qualifiedMember_name (q : Qualifier) {name u : Token} (hname : name.isName)
    (hu : u.isPunctuation "<" = false ∧ u.isPunctuation "." = false) (h : c.ahead = q.rest ++ name :: u :: behind)
    (first : Token) : ∃ d, qualifiedMember first false c = ((name, true), d) ∧ d.ahead = u :: behind := by
  simp only [Qualifier.rest, List.append_assoc, List.cons_append, List.nil_append] at h
  obtain ⟨last, isExplicit, d, hd, hread⟩ := exists_qualifiedMember q.others h first false
  have harguments := ahead_skipTypeArguments q.arguments hd rfl
  let e := d.skipTypeArguments.next.next
  have he : e.ahead = u :: behind := by simp only [e, next, harguments, List.tail_cons]
  refine ⟨e, ?_, he⟩
  have hself : e.skipTypeArguments = e := skipTypeArguments_eq_self (by rw [sees, peek?, he]; exact hu.1)
  have hend : e.sees "." = false := by rw [sees, peek?, he]; exact hu.2
  rw [hread, qualifiedMember_of_name harguments hname, qualifiedMember]
  simp only [e, hself, hend, Bool.false_eq_true, ↓reduceDIte]

/-- In front of the word `this` the name of an interface has come to its end. -/
theorem qualifiedMember_this (q : Qualifier) (word : Word "this") (h : c.ahead = q.rest ++ word.token :: behind)
    (first : Token) : ∃ last d, qualifiedMember first false c = ((last, true), d) ∧ d.ahead = word.token :: behind := by
  simp only [Qualifier.rest, List.append_assoc, List.cons_append, List.nil_append] at h
  obtain ⟨last, isExplicit, d, hd, hread⟩ := exists_qualifiedMember q.others h first false
  have harguments := ahead_skipTypeArguments q.arguments hd rfl
  have hdot : d.skipTypeArguments.sees "." = true := by rw [sees, peek?, harguments]; rfl
  have hpeek : d.skipTypeArguments.next.peek? = some word.token := by rw [peek?, next, harguments]; rfl
  have hword : word.token.isName = false ∧ word.token.isKeyword "this" = true := ⟨rfl, rfl⟩
  refine ⟨last, d.skipTypeArguments.next, ?_, by rw [next, harguments]; rfl⟩
  rw [hread, qualifiedMember]
  simp only [hdot, ↓reduceDIte, hpeek, hword, Bool.false_eq_true, ↓reduceIte]

/-- A bracketed group without further brackets is skipped. -/
theorem ahead_skipGroup {opener closer : String} (b : Brackets opener closer) (hopener : b.opening.token.isOpener)
    (hcloser : b.closing.token.isOpener = false ∧ b.closing.token.isCloser) {inner : List Token}
    (hinner : ∀ t ∈ inner, t.isOpener = false ∧ t.isCloser = false) (h : c.ahead = b.around inner ++ behind) :
    c.skipGroup.ahead = behind := by
  have hinside (before : List Token) :
      (skipBrackets 1 before (inner ++ b.closing.token :: behind)).ahead = behind := by
    clear h
    induction inner generalizing before with
    | nil => simp [skipBrackets, hcloser]
    | cons t inner ih =>
      obtain ⟨ht, hinner⟩ := List.forall_mem_cons.mp hinner
      simp only [List.cons_append, skipBrackets, ht, Bool.false_eq_true, ↓reduceIte]
      exact ih hinner _
  rw [skipGroup, h, Brackets.around, List.cons_append, List.append_assoc, skipBrackets, if_pos hopener]
  exact hinside _

end Cursor

/-! ### Members -/

theorem ExplicitMember.Parameters.not_bracket (ps : Parameters) :
    ∀ t ∈ ps.tokens, t.isOpener = false ∧ t.isCloser = false := by
  have hword {t : Token} (ht : t.kind ≠ .punctuation) : t.isOpener = false ∧ t.isCloser = false := by
    simp [isOpener, isCloser, ht]
  have hparameter (p : Parameter) : ∀ t ∈ [p.type.token, p.name.token], t.isOpener = false ∧ t.isCloser = false := by
    have htype := hword (CoreGrammar.kind_ne_of_isType p.type.isName_or_isBuiltInType)
    simpa using ⟨htype, hword (t := p.name.token) (by simp [Identifier.token])⟩
  intro t ht
  rcases List.mem_append.mp ht with ht | ht
  · exact hparameter ps.first t ht
  · obtain ⟨other, -, ht⟩ := List.mem_flatMap.mp ht
    rcases List.mem_cons.mp ht with rfl | ht
    · exact ⟨rfl, rfl⟩
    · exact hparameter other.2 t ht

theorem ExplicitMember.Accessors.not_bracket (a : Accessors) :
    ∀ t ∈ a.getter.tokens ++ a.setter.tokens, t.isOpener = false ∧ t.isCloser = false := by
  simp [CoreGrammar.Accessor.tokens, isOpener, isCloser, Mark.token]

namespace Reading.Clean

variable {s : Reading} {rest : List Token} {o : Outline}

/-- Behind its type a member begins with the name of the interface. -/
theorem explicitHead (typeDeclaration : TypeReader) (head : Head) (h : s.Clean (head.tokens ++ rest) o)
    (place : Place) :
    ∃ v : Reading, v.Clean (head.qualifier.rest ++ rest) o ∧
      member typeDeclaration place s = namedMember place {} head.qualifier.first.token v := by
  obtain ⟨T, q⟩ := head
  have hs : s.Clean (T.token :: q.first.token :: (q.rest ++ rest)) o := h
  have htype : s.type? = some (T.token.text == "var", s.next) := by
    rw [Reading.type?, hs.typeWord T.isName_or_isBuiltInType (T.isPunctuation _) fun _ _ => rfl]
    rfl
  have hname := hs.next
  refine ⟨s.next.next, hname.next, ?_⟩
  calc member typeDeclaration place s
      = Reading.typedMember place {} s := by
        have hevent : T.token.isKeyword "event" = false := T.isKeyword rfl
        have himplicit : T.token.isKeyword "implicit" = false := T.isKeyword rfl
        have hexplicit : T.token.isKeyword "explicit" = false := T.isKeyword rfl
        have hcall : s.cursor.seesSecond "(" = false := hs.seesSecond "("
        rw [member, T.header_eq_self hs.ahead]
        simp only [hs.toAt.peek, T.isPunctuation, T.seesTypeDeclaration hs.toAt.peek, hevent, himplicit, hexplicit,
          hcall, Bool.or_self, Bool.and_false, Bool.false_eq_true, ↓reduceIte]
    _ = namedMember place {} q.first.token s.next.next := by
        rw [Reading.typedMember]
        simp only [hs.toAt.eatKeyword_none "ref" (T.isKeyword rfl), Option.elim, htype, hname.toAt.seesKeyword,
          hname.toAt.eatKeyword_none "operator" rfl, hname.toAt.name (t := q.first.token) rfl]
        rfl

/-- The name of an explicit member is known by the name of its interface. -/
theorem explicitName (q : Qualifier) (name : Identifier) {u : Token}
    (hu : u.isPunctuation "<" = false ∧ u.isPunctuation "." = false)
    (h : s.Clean (q.rest ++ name.token :: u :: rest) o) (first : Token) :
    ∃ v : Reading, s.memberName first = ((name.token, true), v) ∧ v.Clean (u :: rest) o := by
  obtain ⟨d, hread, hd⟩ := Cursor.qualifiedMember_name q (show name.token.isName from rfl) hu h.ahead first
  exact ⟨{ s with cursor := d }, by rw [Reading.memberName, hread], h.cursor hd⟩

/-- Behind its name a method goes on with its parameters. -/
theorem explicitMethodName (typeDeclaration : TypeReader) (head : Head) (name : Identifier)
    (parentheses : Parentheses) (parameters : ExplicitMember.Parameters) (braces : Braces)
    (h : s.Clean ((ExplicitMember.method head name parentheses parameters braces).tokens ++ rest) o) (place : Place) :
    ∃ w : Reading, w.Clean (parentheses.around parameters.tokens ++ (braces.around [] ++ rest)) o ∧
      member typeDeclaration place s = Reading.methodRest Statement.read place.scope name.declared w := by
  simp only [ExplicitMember.tokens, List.append_assoc, List.cons_append] at h
  obtain ⟨v, hv, hread⟩ := h.explicitHead typeDeclaration head place
  obtain ⟨w, hname, hw⟩ := Clean.explicitName head.qualifier name (u := parentheses.opening.token) ⟨rfl, rfl⟩ hv _
  refine ⟨w, hw, ?_⟩
  rw [hread, namedMember, hname]
  simp only [hw.toAt.sees]
  rfl

/-- Of a method only its scope is recorded, with its parameters. -/
theorem explicitMethod (typeDeclaration : TypeReader) (head : Head) (name : Identifier) (parentheses : Parentheses)
    (parameters : ExplicitMember.Parameters) (braces : Braces) (hscoped : ∀ p ∈ parameters.list, p.isScoped = false)
    (h : s.Clean ((ExplicitMember.method head name parentheses parameters braces).tokens ++ rest) o) (place : Place) :
    (member typeDeclaration place s).settle.Clean rest
      (((ExplicitMember.method head name parentheses parameters braces).contents .done).record place.scope o) := by
  obtain ⟨w, hw, hread⟩ := h.explicitMethodName typeDeclaration head name parentheses parameters braces place
  rw [hread]
  refine Clean.methodRest parentheses (.inr (parameters.isParameterList hscoped)) braces .done ?_ place.scope
    name.declared
  simpa [CoreGrammar.Statements.tokens] using hw

/-- Of a property only its scope is recorded. -/
theorem explicitProperty (typeDeclaration : TypeReader) (head : Head) (name : Identifier) (accessors : Accessors)
    (h : s.Clean ((ExplicitMember.property head name accessors).tokens ++ rest) o)
    (hrest : ∀ t ∈ rest.head?, t.isPunctuation "=" = false) (place : Place) :
    (member typeDeclaration place s).settle.Clean rest
      (((ExplicitMember.property head name accessors).contents .done).record place.scope o) := by
  simp only [ExplicitMember.tokens, List.append_assoc, List.cons_append] at h
  obtain ⟨v, hv, hread⟩ := h.explicitHead typeDeclaration head place
  obtain ⟨w, hname, hw⟩ := Clean.explicitName head.qualifier name (u := accessors.braces.opening.token) ⟨rfl, rfl⟩ hv _
  obtain ⟨hscope, hs⟩ := hw.openScope .method (some name.declared) place.scope
  have hnamed : namedMember place {} head.qualifier.first.token v =
      memberWithAccessors place {} name.token true .property w := by
    rw [namedMember, hname]
    simp only [hw.toAt.sees]
    rfl
  rw [hread, hnamed]
  exact Clean.accessors accessors.braces accessors.getter accessors.setter hs hrest _

/-- An indexer is reported at its word `this` and skipped. -/
theorem explicitIndexer (typeDeclaration : TypeReader) (head : Head) (word : Word "this")
    (brackets : Brackets "[" "]") (parameters : ExplicitMember.Parameters) (accessors : Accessors)
    (h : s.Clean ((ExplicitMember.indexer head word brackets parameters accessors).tokens ++ rest) o) (place : Place) :
    ∃ d : Cursor, d.ahead = rest ∧ (member typeDeclaration place s).settle =
      ⟨d, o, #[⟨.expected "field, property or method body", word.span.start⟩], false⟩ := by
  simp only [ExplicitMember.tokens, List.append_assoc, List.cons_append] at h
  obtain ⟨v, hv, hread⟩ := h.explicitHead typeDeclaration head place
  obtain ⟨last, c, hname, hc⟩ := Cursor.qualifiedMember_this head.qualifier word hv.ahead head.qualifier.first.token
  let w : Reading := { v with cursor := c }
  have hw : w.Clean (word.token :: (brackets.around parameters.tokens ++ (accessors.tokens ++ rest))) o := hv.cursor hc
  let defect : Defect := .expected "field, property or method body"
  have hnamed : namedMember place {} head.qualifier.first.token v = .malformed (w.report defect) := by
    rw [namedMember, show v.memberName head.qualifier.first.token = ((last, true), w) by rw [Reading.memberName, hname]]
    simp only [hw.toAt.sees]
    rfl
  -- The reader recovers behind the word, the brackets, and the accessors.
  let behindWord := (w.report defect).next
  let behindBrackets := behindWord.move .skipGroup
  let behindAccessors := behindBrackets.move .skipGroup
  have hword : behindWord.ahead = brackets.around parameters.tokens ++ (accessors.tokens ++ rest) :=
    congrArg List.tail hw.ahead
  have hbrackets : behindBrackets.ahead = accessors.tokens ++ rest :=
    Cursor.ahead_skipGroup brackets rfl ⟨rfl, rfl⟩ parameters.not_bracket hword
  have haccessors : behindAccessors.ahead = rest :=
    Cursor.ahead_skipGroup accessors.braces rfl ⟨rfl, rfl⟩ accessors.not_bracket hbrackets
  have hrecover : (w.report defect).recover = behindAccessors :=
    calc (w.report defect).recover
        = rounds Reading.size recoverRound stall behindWord := by
          refine rounds_of_again ?_ (Cursor.size_next_lt (Cursor.ahead_ne_nil_of_peek? hw.toAt.peek))
          rw [recoverRound, show (w.report defect).peek? = some word.token from hw.toAt.peek]
          rfl
      _ = rounds Reading.size recoverRound stall behindBrackets := by
          have hpeek : behindWord.peek? = some brackets.opening.token := congrArg List.head? hword
          refine rounds_of_again ?_ (Cursor.size_skipGroup_lt (Cursor.ahead_ne_nil_of_peek? hpeek))
          rw [recoverRound, hpeek]
          rfl
      _ = behindAccessors := by
          have hpeek : behindBrackets.peek? = some accessors.braces.opening.token := congrArg List.head? hbrackets
          refine rounds_of_done ?_
          rw [recoverRound, hpeek]
          rfl
  refine ⟨behindAccessors.cursor, haccessors, ?_⟩
  have herrors : (w.report defect).errors = #[⟨defect, word.span.start⟩] := by
    rw [report, reportAt, hw.position, hw.errors]
    rfl
  rw [hread, hnamed, Attempt.settle, hrecover, ← herrors, ← hw.outline, ← hw.moving]
  rfl

end Reading.Clean

/-! ### Parameters of a type called `scoped` -/

namespace Reading

variable {s t u : Reading} {rest : List Token} {o : Outline}

/-- A defect is kept by what is read behind it. -/
theorem Flawed.leads (h : s.Flawed t)
    (hleads : ∀ {tokens : List Token}, t.Sound tokens (· ≠ #[]) →
      u.Sound tokens (· ≠ #[]) ∧ u.size ≤ t.size) : s.Flawed u := by
  obtain ⟨hsound, hsize⟩ := hleads ⟨rfl, h.moving, h.errors⟩
  exact ⟨hsound.errors, hsound.moving, Nat.le_trans hsize h.size⟩

namespace Clean

/-- A word that is read as a modifier leaves no name behind the type, or no type. -/
theorem scopedParameter {p : Parameter} (hp : p.isScoped) {mark : String} (m : Mark mark)
    (hmark : mark = "," ∨ mark = ")") (h : s.Clean (p.type.token :: p.name.token :: m.token :: rest) o)
    (method : ScopeId) : ∃ t, s.Flawed t ∧ parameterRound Statement.read method methodParameters s = .done t := by
  let u := s.move (·.skipAttributes.skipWhile isParameterModifier)
  have hm : isParameterModifier m.token = false ∧ (m.token.isName || m.token.isBuiltInType) = false ∧
      m.token.isPunctuation "(" = false ∧
        ∀ mark ∈ ["<", ".", "::", "?", "*", "["], m.token.isPunctuation mark = false := by
    rcases hmark with rfl | rfl <;> exact ⟨rfl, rfl, rfl, by simp [Mark.token, isPunctuation]⟩
  have hu : u.Clean ((p.name.token :: m.token :: rest).dropWhile isParameterModifier) o := by
    have hmodifier : isParameterModifier p.type.token := p.isParameterModifier_eq.trans hp
    refine h.cursor ?_
    show (s.cursor.skipAttributes.skipWhile isParameterModifier).ahead = _
    rw [h.skipAttributes_eq_self (CoreGrammar.kind_ne_of_isType p.type.isName_or_isBuiltInType), Cursor.skipWhile,
      show s.cursor.ahead = _ from h.ahead, List.dropWhile_cons_of_pos hmodifier]
  have habandoned {v : Reading} (hv : v.stalled = false) (hsize : v.size ≤ s.size) (defect : Defect) :
      s.Flawed (abandonParameters Statement.read method methodParameters.closer (v.report defect)) := by
    refine ((flawed_report hv defect).mono hsize).leads fun hsound => ?_
    have hread := Correspondence.abandonParameters (Correspondence.statements _)
      (hsound.related fun _ _ => Array.push_ne_empty) (i := method) (j := method) rfl (Nat.le_refl _)
      methodParameters.closer
    exact ⟨sound_of_related hread.related, hread.size_le⟩
  have hsize : s.size = rest.length + 3 := h.size
  by_cases hname : isParameterModifier p.name.token
  · have hu : u.Clean (m.token :: rest) o := by
      rwa [List.dropWhile_cons_of_pos hname, List.dropWhile_cons_of_neg (Bool.eq_false_iff.mp hm.1)] at hu
    have htype : u.type? = none := by
      rw [type?, Cursor.type?, Cursor.typeInside_eq, show u.cursor.peek? = _ from hu.toAt.peek]
      simp only [hm.2.1, hm.2.2.1, Bool.false_eq_true, ↓reduceIte, Option.map_none]
    refine ⟨_, habandoned hu.moving ?_ (.expected "parameter type"), ?_⟩
    · rw [hu.size, hsize]
      simp
    · rw [parameterRound, show s.move _ = u from rfl, htype]
  · have hu : u.Clean (p.name.token :: m.token :: rest) o := by
      rwa [List.dropWhile_cons_of_neg hname] at hu
    have htype : u.type? = some (p.name.token.text == "var", u.next) := by
      rw [type?, hu.typeWord rfl rfl hm.2.2.2]
      rfl
    have hnone : u.next.name? = none := by
      rw [name?, Cursor.name?, show u.next.cursor.peek? = _ from hu.next.toAt.peek]
      simp only [(Bool.or_eq_false_iff.mp hm.2.1).1, Bool.false_eq_true, ↓reduceIte, Option.map_none]
    refine ⟨_, habandoned hu.next.moving ?_ (.nameless "parameter"), ?_⟩
    · rw [hu.next.size, hsize]
      simp
    · rw [parameterRound, show s.move _ = u from rfl, htype]
      simp only [hnone]

/-- The list of parameters is given up at the first one of such a type. -/
theorem scopedRounds (ps : Parameters) (hps : ∃ p ∈ ps.list, p.isScoped) (closing : Mark ")") (method : ScopeId)
    (h : s.Clean (ps.tokens ++ closing.token :: rest) o) :
    s.Flawed (rounds Reading.size (parameterRound Statement.read method methodParameters) stall s) := by
  obtain ⟨first, others⟩ := ps
  induction others generalizing first s o with
  | nil =>
    obtain ⟨p, hp, hscoped⟩ := hps
    obtain rfl : p = first := List.mem_singleton.mp hp
    obtain ⟨t, ht, hround⟩ := scopedParameter hscoped closing (.inr rfl) h method
    rwa [rounds_of_done hround]
  | cons other others ih =>
    by_cases hfirst : first.isScoped
    · obtain ⟨t, ht, hround⟩ := scopedParameter hfirst other.1 (.inl rfl) h method
      rwa [rounds_of_done hround]
    · have hparameter := Parameter.isParameter (Bool.eq_false_iff.mpr hfirst)
      obtain ⟨u, hu, hround, -⟩ := Clean.parameter Statement.read hparameter other.1 h rfl method
      have hothers : ∃ p ∈ (Parameters.mk other.2 others).list, p.isScoped := by
        obtain ⟨p, hp, hscoped⟩ := hps
        rcases List.mem_cons.mp hp with rfl | hp
        · exact absurd hscoped hfirst
        · exact ⟨p, hp, hscoped⟩
      have hsize : s.size = u.next.size + 3 := by
        rw [h.size, hu.next.size]
        rfl
      rw [rounds_of_again (hround u.next (hu.toAt.eat "," rfl)) (by omega)]
      exact (ih other.2 hothers hu.next).mono (by omega)

/-- A method with a parameter of such a type is reported. -/
theorem scopedMethod (typeDeclaration : TypeReader) (head : Head) (name : Identifier) (parentheses : Parentheses)
    (parameters : ExplicitMember.Parameters) (braces : Braces) (hscoped : ∃ p ∈ parameters.list, p.isScoped)
    (h : s.Clean ((ExplicitMember.method head name parentheses parameters braces).tokens ++ rest) o) (place : Place) :
    (member typeDeclaration place s).settle.size < s.size ∧ s.Flawed (member typeDeclaration place s).settle := by
  obtain ⟨w, hw, hread⟩ := h.explicitMethodName typeDeclaration head name parentheses parameters braces place
  obtain ⟨-, hv⟩ := hw.openScope .method (some name.declared) place.scope
  let method := (w.openScope .method (some name.declared) place.scope).1
  let v := (w.openScope .method (some name.declared) place.scope).2
  have hopening : v.Clean (parentheses.opening.token :: (parameters.tokens ++ parentheses.closing.token ::
      (braces.around [] ++ rest))) (o.addScope .method (some name.declared) none place.scope).2 := by
    simpa [Brackets.around] using hv
  have hinner := hopening.next
  have hlist : v.next.Flawed (parameterList Statement.read method .parameter .parameter v) := by
    have hclosing : v.next.eat? ")" = none :=
      hinner.toAt.eat_none ")" (not_isPunctuation_of_kind
        (CoreGrammar.kind_ne_of_isType parameters.first.type.isName_or_isBuiltInType) ")")
    rw [hopening.parameterList_eq, hclosing]
    exact hinner.scopedRounds parameters hscoped parentheses.closing method
  have hmember : v.next.Flawed (member typeDeclaration place s).settle := by
    rw [hread, hw.methodRest_eq]
    refine hlist.leads fun hsound => ?_
    have hcall := (hsound.related fun _ _ => Array.push_ne_empty).skipConstructorCall
    have hconstraints := hcall.trans hcall.related.skipConstraints
    have hbody := Correspondence.methodBody (Correspondence.statements _) hconstraints.related (i := method)
      (j := method) rfl (Nat.le_refl _)
    have hsettle := hconstraints.trans (Correspondence.settle hbody)
    exact ⟨sound_of_related hsettle.related, hsettle.size_le⟩
  have hsize : v.next.size < s.size := by
    rw [h.size, hinner.size]
    simp [ExplicitMember.tokens, Brackets.around]
    omega
  exact ⟨Nat.lt_of_le_of_lt hmember.size hsize, hmember.mono (Nat.le_of_lt hsize)⟩

end Clean

end Reading

end CSharpStyle
