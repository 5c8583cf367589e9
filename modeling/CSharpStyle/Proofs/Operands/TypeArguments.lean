import CSharpStyle.Proofs.CoreGrammar.Syntax
import CSharpStyle.Proofs.Operands.Comparison
import CSharpStyle.Proofs.Operands.Operation
import Mathlib.Data.List.DropRight

/-!
# Members of generic types as operands

The angle brackets of a generic type are matched, so that a member of the type does not count as boolean. But a comma
is a boundary between angle brackets as well, and so is the word `when`. It cuts the type, and the angle brackets of
the pieces are no longer matched.

* `TypeArguments`, `GenericType`: lists of types, and types with type arguments.
* `TypeArguments.countP_take_le`: no beginning of a list of types closes more angle brackets than it opens.
* `GenericType.not_hasStrayAngle`, `GenericType.hasStrayAngle_first_iff`: the whole of a type, and its first piece.
* `GenericMember.isBoolean_left_iff`, `GenericMember.isBoolean_right_iff`: when the pieces count as boolean.
* `MemberOperation.reported_iff`: the statement `var v = G.m & H.n;` is reported if and only if both types are cut, and
  the pieces that touch the operator have angle brackets left.
-/

namespace CSharpStyle.ShortCircuit

open CoreGrammar (Mark Word)

/-! ### Types and type arguments -/

/-- A name, or the keyword of a built-in type. -/
structure PlainType where
  token : Token
  isPlain : token.isName ∨ token.isBuiltInType

/-- Types with commas between them. -/
inductive TypeArguments
  | plain (type : PlainType)
  | generic (type : PlainType) (opening : Mark "<") (arguments : TypeArguments) (closing : Mark ">")
  | list (first : TypeArguments) (comma : Mark ",") (others : TypeArguments)

def TypeArguments.tokens : TypeArguments → List Token
  | plain type => [type.token]
  | generic type opening arguments closing => type.token :: opening.token :: (arguments.tokens ++ [closing.token])
  | list first comma others => first.tokens ++ comma.token :: others.tokens

structure GenericType where
  name : PlainType
  opening : Mark "<"
  arguments : TypeArguments
  closing : Mark ">"

/-- The type as one of the types in a list. -/
def GenericType.argument (g : GenericType) : TypeArguments := .generic g.name g.opening g.arguments g.closing

def GenericType.tokens (g : GenericType) : List Token := g.argument.tokens

/-- A member of a generic type. -/
structure GenericMember where
  type : GenericType
  dot : Mark "."
  member : Token
  isName : member.isName

def GenericMember.tokens (m : GenericMember) : List Token := m.type.tokens ++ [m.dot.token, m.member]

/-- A statement `var v = G.m & H.n;` or `var v = G.m | H.n;`. -/
structure MemberOperation where
  word : Word "var"
  name : Token
  isName : name.isName
  assign : Mark "="
  left : GenericMember
  operator : Token
  isShort : (shortForm? operator).isSome
  right : GenericMember
  semicolon : Mark ";"

def MemberOperation.tokens (o : MemberOperation) : List Token :=
  [o.word.token, o.name, o.assign.token] ++ o.left.tokens ++ o.operator :: (o.right.tokens ++ [o.semicolon.token])

/-! ### Angle brackets of types -/

/-- Words do not take part in comparisons. -/
theorem isInert_of_kind {t : Token} (hkind : t.kind ≠ .punctuation) (his : t.isKeyword "is" = false) : IsInert t := by
  have hmark := Token.not_isPunctuation_of_kind hkind
  constructor <;> simp only [opens, closes, isComparison, shortForm?, hmark, his, Bool.or_false, Bool.false_eq_true,
    ↓reduceIte]

theorem isInert_of_keyword {t : Token} {words : List String} (h : t.kind == .keyword && words.contains t.text)
    (his : words.contains "is" = false) : IsInert t := by
  obtain ⟨hkind, hword⟩ := Bool.and_eq_true_iff.mp h
  refine isInert_of_kind (fun hmark => ?_) (Bool.eq_false_iff.mpr fun hkeyword => ?_)
  · rw [hmark] at hkind
    cases hkind
  · rw [eq_of_beq (Bool.and_eq_true_iff.mp hkeyword).2, his] at hword
    cases hword

theorem isInert_of_isName {t : Token} (h : t.isName) : IsInert t := by
  rcases Bool.or_eq_true_iff.mp h with hidentifier | hcontextual
  · have hkind : t.kind = .identifier := eq_of_beq hidentifier
    refine isInert_of_kind (hkind ▸ nofun) ?_
    rw [Token.isKeyword, hkind]
    rfl
  · exact isInert_of_keyword hcontextual (by decide)

theorem PlainType.isInert (p : PlainType) : IsInert p.token := by
  rcases p.isPlain with hname | hbuiltIn
  · exact isInert_of_isName hname
  · exact isInert_of_keyword hbuiltIn (by decide)

/-- Text without boundaries is one piece. -/
theorem forall_not_isBoundary {tokens : List Token} (h : ¬∃ t ∈ tokens, isBoundary t) :
    ∀ t ∈ tokens, (!isBoundary t) = true := by
  intro t ht
  rw [Bool.not_eq_true']
  exact Bool.eq_false_iff.mpr fun hboundary => h ⟨t, ht, hboundary⟩

namespace TypeArguments

theorem kinds (a : TypeArguments) : ∀ t ∈ a.tokens, IsInert t ∨ t.isPunctuation "<" ∨ t.isPunctuation ">" := by
  induction a with
  | plain type => exact List.forall_mem_singleton.mpr (.inl type.isInert)
  | generic type opening arguments closing ih =>
    refine List.forall_mem_cons.mpr ⟨.inl type.isInert, List.forall_mem_cons.mpr ⟨.inr (.inl rfl), ?_⟩⟩
    exact List.forall_mem_append.mpr ⟨ih, List.forall_mem_singleton.mpr (.inr (.inr rfl))⟩
  | list first comma others ihFirst ihOthers =>
    have hcomma : IsInert comma.token := ⟨rfl, rfl, rfl, rfl, rfl, rfl, rfl⟩
    exact List.forall_mem_append.mpr ⟨ihFirst, List.forall_mem_cons.mpr ⟨.inl hcomma, ihOthers⟩⟩

/-- Behind a `>` comes another one or a comma. -/
theorem isChain_tokens (a : TypeArguments) :
    a.tokens.IsChain fun t u => t.isPunctuation ">" → u.isPunctuation ">" ∨ isBoundary u := by
  induction a with
  | plain type => exact .singleton _
  | generic type opening arguments closing ih =>
    have harguments := List.isChain_append.mpr ⟨ih, List.isChain_singleton closing.token, fun _ _ u hu _ => by
      cases hu
      exact .inl rfl⟩
    refine List.isChain_cons_cons.mpr ⟨fun hgreater => ?_, List.isChain_cons.mpr ⟨fun _ _ hgreater => ?_, harguments⟩⟩
    · exact absurd (type.isInert.greater ▸ hgreater) Bool.false_ne_true
    · exact absurd hgreater Bool.false_ne_true
  | list first comma others ihFirst ihOthers =>
    refine List.isChain_append.mpr ⟨ihFirst, List.isChain_cons.mpr ⟨fun _ _ hgreater => ?_, ihOthers⟩, ?_⟩
    · exact absurd hgreater Bool.false_ne_true
    · intro _ _ u hu _
      cases hu
      exact .inr rfl

/-- Between boundaries, nothing but `>` comes behind a `>`. -/
theorem isPiece {a : TypeArguments} {piece : List Token} (hpart : piece <:+: a.tokens)
    (hunbroken : ∀ t ∈ piece, isBoundary t = false) : IsPiece piece where
  kinds t ht := a.kinds t (hpart.subset ht)
  chain := by
    have hchain := List.IsChain.infix a.isChain_tokens hpart
    refine hchain.imp_of_mem_imp fun t u _ hu hnext hgreater => ?_
    refine (hnext hgreater).resolve_right fun hboundary => ?_
    rw [hunbroken u hu] at hboundary
    cases hboundary

/-- As many angle brackets are closed as are opened. -/
theorem countP_tokens (a : TypeArguments) :
    a.tokens.countP (·.isPunctuation ">") = a.tokens.countP (·.isPunctuation "<") := by
  induction a with
  | plain type => simp [tokens, type.isInert.greater, type.isInert.less]
  | generic type opening arguments closing ih =>
    have hopening : opening.token.isPunctuation "<" ∧ opening.token.isPunctuation ">" = false := ⟨rfl, rfl⟩
    have hclosing : closing.token.isPunctuation ">" ∧ closing.token.isPunctuation "<" = false := ⟨rfl, rfl⟩
    simp [tokens, type.isInert.greater, type.isInert.less, hopening, hclosing, ih]
  | list first comma others ihFirst ihOthers =>
    have hcomma : comma.token.isPunctuation ">" = false ∧ comma.token.isPunctuation "<" = false := ⟨rfl, rfl⟩
    simp [tokens, hcomma, ihFirst, ihOthers]

/-- No beginning closes more angle brackets than it opens. -/
theorem countP_take_le (a : TypeArguments) (n : Nat) :
    (a.tokens.take n).countP (·.isPunctuation ">") ≤ (a.tokens.take n).countP (·.isPunctuation "<") := by
  induction a generalizing n with
  | plain type =>
    cases n with
    | zero => exact Nat.le_refl 0
    | succ n => simp [tokens, type.isInert.greater, type.isInert.less]
  | generic type opening arguments closing ih =>
    have hopening : opening.token.isPunctuation "<" ∧ opening.token.isPunctuation ">" = false := ⟨rfl, rfl⟩
    -- The bracket in front of the arguments is closed behind them.
    have hclosing (k : Nat) : ([closing.token].take k).countP (·.isPunctuation ">") ≤ 1 :=
      Nat.le_trans List.countP_le_length (List.length_take_le' k _)
    match n with
    | 0 => exact Nat.le_refl 0
    | 1 => simp [tokens, type.isInert.greater, type.isInert.less]
    | n + 2 =>
      have harguments := ih n
      have hlast := hclosing (n - arguments.tokens.length)
      simp only [tokens, List.take_succ_cons, List.take_append, List.countP_cons, List.countP_append, hopening,
        type.isInert.greater, type.isInert.less, Bool.false_eq_true, ↓reduceIte]
      omega
  | list first comma others ihFirst ihOthers =>
    have hcomma : comma.token.isPunctuation ">" = false ∧ comma.token.isPunctuation "<" = false := ⟨rfl, rfl⟩
    have hfirst := ihFirst n
    rw [tokens, List.take_append]
    cases hrest : n - first.tokens.length with
    | zero =>
      rw [List.take_zero, List.append_nil]
      exact hfirst
    | succ k =>
      have hothers := ihOthers k
      simp only [List.take_succ_cons, List.countP_cons, List.countP_append, hcomma]
      omega

end TypeArguments

namespace GenericType

variable (g : GenericType)

/-- A piece at the beginning that ends inside the angle brackets has one left. -/
theorem countP_take_lt {n : Nat} (hpositive : 2 ≤ n) (hless : n < g.tokens.length) :
    (g.tokens.take n).countP (·.isPunctuation ">") < (g.tokens.take n).countP (·.isPunctuation "<") := by
  have hopening : g.opening.token.isPunctuation "<" ∧ g.opening.token.isPunctuation ">" = false := ⟨rfl, rfl⟩
  match n with
  | n + 2 =>
    have harguments := g.arguments.countP_take_le n
    have hinside : n ≤ g.arguments.tokens.length := by
      simp [tokens, argument, TypeArguments.tokens] at hless
      omega
    rw [tokens, argument, TypeArguments.tokens, List.take_succ_cons, List.take_succ_cons, List.take_append_of_le_length hinside]
    simp only [List.countP_cons, hopening, g.name.isInert.greater, g.name.isInert.less, Bool.false_eq_true, ↓reduceIte]
    omega

theorem isPiece {piece : List Token} (hpart : piece <:+: g.tokens)
    (hunbroken : ∀ t ∈ piece, isBoundary t = false) : IsPiece piece :=
  TypeArguments.isPiece (a := g.argument) hpart hunbroken

/-- A type that is not cut has no angle bracket left. -/
theorem not_hasStrayAngle : ¬hasStrayAngle g.tokens := by
  have hbalanced : g.tokens.countP (·.isPunctuation ">") = g.tokens.countP (·.isPunctuation "<") :=
    g.argument.countP_tokens
  rw [hasStrayAngle_iff hbalanced.le]
  exact hbalanced.not_lt

/-- A boundary in the name leaves nothing in front of it. -/
theorem first_eq_nil (h : isBoundary g.name.token) : g.tokens.takeWhile (!isBoundary ·) = [] :=
  List.takeWhile_cons_of_neg (by simpa using h)

/-- The first boundary behind the name stands behind the opening bracket. -/
theorem two_le_length_first (h : isBoundary g.name.token = false) :
    2 ≤ (g.tokens.takeWhile (!isBoundary ·)).length := by
  have hopening : isBoundary g.opening.token = false := rfl
  simp [tokens, argument, TypeArguments.tokens, h, hopening]

/-- The piece in front of the first boundary has an angle bracket left if the boundary stands inside the type. -/
theorem hasStrayAngle_first_iff :
    hasStrayAngle (g.tokens.takeWhile (!isBoundary ·)) ↔
      (∃ t ∈ g.tokens, isBoundary t) ∧ isBoundary g.name.token = false := by
  have hpiece : g.tokens.takeWhile (!isBoundary ·) <+: g.tokens := List.takeWhile_prefix _
  constructor
  · intro hstray
    constructor
    · by_contra hunbroken
      rw [List.takeWhile_eq_self_iff.mpr (forall_not_isBoundary hunbroken)] at hstray
      exact g.not_hasStrayAngle hstray
    · refine Bool.eq_false_iff.mpr fun hname => ?_
      rw [g.first_eq_nil hname] at hstray
      exact Bool.false_ne_true hstray
  · rintro ⟨⟨t, ht, hboundary⟩, hname⟩
    have hless : (g.tokens.takeWhile (!isBoundary ·)).length < g.tokens.length := by
      refine hpiece.length_le.lt_of_ne fun hlength => ?_
      rw [← hpiece.eq_of_length hlength] at ht
      have hkept := List.mem_takeWhile_imp ht
      rw [hboundary] at hkept
      cases hkept
    have hopen := g.countP_take_lt (g.two_le_length_first hname) hless
    -- Of the brackets that the piece opens, the first one is closed behind it.
    rw [← List.prefix_iff_eq_take.mp hpiece] at hopen
    exact (hasStrayAngle_iff hopen.le).mpr hopen

end GenericType

/-! ### Operands -/

/-- In front of a boundary and outside brackets, an operand extends to the first boundary. -/
theorem operand_eq_takeWhile {inward outward : Token → Bool} {tokens rest : List Token} {stop : Token}
    (htokens : ∀ t ∈ tokens, inward t = false ∧ outward t = false)
    (hstop : inward stop = false ∧ outward stop = false ∧ isBoundary stop) :
    operand inward outward 0 (tokens ++ stop :: rest) = tokens.takeWhile (!isBoundary ·) := by
  induction tokens with
  | nil =>
    obtain ⟨hinward, houtward, hboundary⟩ := hstop
    rw [List.nil_append, operand, hinward, houtward, hboundary]
    rfl
  | cons t tokens ih =>
    obtain ⟨⟨hinward, houtward⟩, hothers⟩ := List.forall_mem_cons.mp htokens
    rw [List.cons_append, operand, hinward, houtward, List.takeWhile_cons, ih hothers]
    cases isBoundary t <;> rfl

namespace GenericMember

variable (m : GenericMember)

/-- What comes behind the type takes no part in comparisons. -/
theorem isInert_behind : ∀ t ∈ [m.dot.token, m.member], IsInert t :=
  List.forall_mem_cons.mpr
    ⟨⟨rfl, rfl, rfl, rfl, rfl, rfl, rfl⟩, List.forall_mem_singleton.mpr (isInert_of_isName m.isName)⟩

theorem kinds : ∀ t ∈ m.tokens, opens t = false ∧ closes t = false ∧ shortForm? t = none := by
  intro t ht
  have hkinds : IsInert t ∨ t.isPunctuation "<" ∨ t.isPunctuation ">" := by
    rcases List.mem_append.mp ht with ht | ht
    · exact m.type.argument.kinds t ht
    · exact .inl (m.isInert_behind t ht)
  rcases hkinds with hinert | hless | hgreater
  · exact ⟨hinert.opens, hinert.closes, hinert.operator⟩
  · obtain ⟨span, rfl⟩ := exists_eq_of_isPunctuation hless
    exact ⟨rfl, rfl, rfl⟩
  · obtain ⟨span, rfl⟩ := exists_eq_of_isPunctuation hgreater
    exact ⟨rfl, rfl, rfl⟩

/-- The operand in front of an operator is the piece behind the last boundary. -/
theorem leftOperand_eq {front : List Token} {stop : Token}
    (hstop : opens stop = false ∧ closes stop = false ∧ isBoundary stop) :
    leftOperand (front ++ stop :: m.tokens).reverse = m.tokens.rtakeWhile (!isBoundary ·) := by
  rw [leftOperand, List.rtakeWhile, List.reverse_append, List.reverse_cons, List.append_assoc, List.singleton_append,
    operand_eq_takeWhile (fun t ht => ?_) ⟨hstop.2.1, hstop.1, hstop.2.2⟩]
  obtain ⟨hopens, hcloses, -⟩ := m.kinds t (List.mem_reverse.mp ht)
  exact ⟨hcloses, hopens⟩

/-- The operand behind an operator is the piece in front of the first boundary. -/
theorem rightOperand_eq {behind : List Token} {stop : Token}
    (hstop : opens stop = false ∧ closes stop = false ∧ isBoundary stop) :
    rightOperand (m.tokens ++ stop :: behind) = m.tokens.takeWhile (!isBoundary ·) :=
  operand_eq_takeWhile (fun t ht => ⟨(m.kinds t ht).1, (m.kinds t ht).2.1⟩) hstop

/-- The operand in front of an operator is boolean if and only if its piece of the type has an angle bracket left. -/
theorem isBoolean_left_iff (hmember : isBoundary m.member = false) :
    isBoolean (m.tokens.rtakeWhile (!isBoundary ·)) ↔
      (∃ t ∈ m.type.tokens, isBoundary t) ∧ hasStrayAngle (m.type.tokens.rtakeWhile (!isBoundary ·)) := by
  have hdot : isBoundary m.dot.token = false := rfl
  have hpieces : m.tokens.rtakeWhile (!isBoundary ·) =
      m.type.tokens.rtakeWhile (!isBoundary ·) ++ [m.dot.token, m.member] := by
    simp [tokens, List.rtakeWhile, hmember, hdot]
  have hpiece : IsPiece (m.type.tokens.rtakeWhile (!isBoundary ·)) :=
    m.type.isPiece (List.rtakeWhile_suffix ..).isInfix fun t ht => by simpa using List.mem_rtakeWhile_imp ht
  rw [hpieces, hpiece.isBoolean_append m.isInert_behind (by simp)]
  -- Only a type that is cut can have an angle bracket left.
  refine ⟨fun hstray => ⟨?_, hstray⟩, And.right⟩
  by_contra hunbroken
  rw [List.rtakeWhile_eq_self_iff.mpr (forall_not_isBoundary hunbroken)] at hstray
  exact m.type.not_hasStrayAngle hstray

/-- The operand behind an operator is boolean if and only if the type is cut behind its name. -/
theorem isBoolean_right_iff :
    isBoolean (m.tokens.takeWhile (!isBoundary ·)) ↔
      (∃ t ∈ m.type.tokens, isBoundary t) ∧ isBoundary m.type.name.token = false := by
  rw [← m.type.hasStrayAngle_first_iff]
  cases hname : isBoundary m.type.name.token with
  | true =>
    have hnil : m.tokens.takeWhile (!isBoundary ·) = [] := List.takeWhile_cons_of_neg (by simpa using hname)
    rw [hnil, m.type.first_eq_nil hname]
    exact Iff.rfl
  | false =>
    have hpiece : IsPiece (m.type.tokens.takeWhile (!isBoundary ·)) :=
      m.type.isPiece (List.takeWhile_prefix _).isInfix fun t ht => by simpa using List.mem_takeWhile_imp ht
    -- If the type is not cut, a part of what comes behind it belongs to the operand.
    have hpieces : ∃ rest, m.tokens.takeWhile (!isBoundary ·) = m.type.tokens.takeWhile (!isBoundary ·) ++ rest ∧
        ∀ t ∈ rest, IsInert t := by
      rw [tokens, List.takeWhile_append]
      split
      · rename_i hlength
        have hwhole := (List.takeWhile_prefix (!isBoundary ·)).eq_of_length hlength
        exact ⟨_, by rw [hwhole], fun t ht => m.isInert_behind t ((List.takeWhile_prefix _).subset ht)⟩
      · exact ⟨[], (List.append_nil _).symm, nofun⟩
    obtain ⟨rest, hpieces, hrest⟩ := hpieces
    have hlength := m.type.two_le_length_first hname
    rw [hpieces, hpiece.isBoolean_append hrest (by rw [List.length_append]; omega)]

end GenericMember

/-! ### Statements -/

/-- Both types are cut, and the pieces that touch the operator are taken for comparisons. -/
structure MemberOperation.IsMisread (o : MemberOperation) : Prop where
  isIdentifier : o.left.member.isIdentifier
  left_cut : ∃ t ∈ o.left.type.tokens, isBoundary t
  left_stray : hasStrayAngle (o.left.type.tokens.rtakeWhile (!isBoundary ·))
  right_cut : ∃ t ∈ o.right.type.tokens, isBoundary t
  right_name : isBoundary o.right.type.name.token = false

namespace MemberOperation

variable (o : MemberOperation)

/-- No other token of the statement has a short form. -/
theorem eq_operator {t : Token} (ht : t ∈ o.tokens) (hshort : (shortForm? t).isSome) : t = o.operator := by
  by_contra hother
  have hnone : shortForm? t = none := by
    simp only [tokens, List.mem_append, List.mem_cons, List.not_mem_nil, or_false] at ht
    rcases ht with ((rfl | rfl | rfl) | ht) | rfl | ht | rfl
    · rfl
    · exact (isInert_of_isName o.isName).operator
    · rfl
    · exact (o.left.kinds t ht).2.2
    · exact absurd rfl hother
    · exact (o.right.kinds t ht).2.2
    · rfl
  rw [hnone] at hshort
  cases hshort

/-- A contextual keyword is no end of an operand. -/
theorem endsOperand_eq_isIdentifier {t : Token} (h : t.isName) : endsOperand t = t.isIdentifier := by
  obtain ⟨kind, text, span⟩ := t
  rcases Bool.or_eq_true_iff.mp h with hidentifier | hcontextual
  · obtain rfl : kind = .identifier := eq_of_beq hidentifier
    rfl
  · obtain ⟨hkind, hword⟩ := Bool.and_eq_true_iff.mp hcontextual
    obtain rfl : kind = .keyword := eq_of_beq hkind
    have hwords : ∀ word ∈ Keyword.contextual,
        (word == "this" || word == "base" || Keyword.isBuiltInType word) = false := by decide
    exact hwords text (List.contains_iff_mem.mp hword)

/-- What is found at the operator. -/
theorem finding?_isSome_iff (front behind : List Token) :
    (finding? (front ++ [o.word.token, o.name, o.assign.token] ++ o.left.tokens).reverse o.operator
      (o.right.tokens ++ o.semicolon.token :: behind)).isSome ↔ o.IsMisread := by
  obtain ⟨short, hshort⟩ := Option.isSome_iff_exists.mp o.isShort
  have hfront : front ++ [o.word.token, o.name, o.assign.token] ++ o.left.tokens =
      (front ++ [o.word.token, o.name]) ++ o.assign.token :: o.left.tokens := by simp
  have hlast : (front ++ [o.word.token, o.name, o.assign.token] ++ o.left.tokens).reverse.head? =
      some o.left.member := by simp [GenericMember.tokens]
  rw [finding?, hshort, Option.bind_some, Option.isSome_ite, hlast, hfront, o.left.leftOperand_eq ⟨rfl, rfl, rfl⟩,
    o.right.rightOperand_eq ⟨rfl, rfl, rfl⟩, Option.any_some, endsOperand_eq_isIdentifier o.left.isName,
    Bool.and_eq_true, Bool.and_eq_true, o.right.isBoolean_right_iff]
  constructor
  -- An identifier is no boundary, so that the member belongs to the operand.
  · rintro ⟨⟨hidentifier, hleft⟩, hcut, hname⟩
    have hmember : isBoundary o.left.member = false := by
      rw [isBoundary, eq_of_beq hidentifier]
    obtain ⟨hleftCut, hstray⟩ := (o.left.isBoolean_left_iff hmember).mp hleft
    exact ⟨hidentifier, hleftCut, hstray, hcut, hname⟩
  · rintro ⟨hidentifier, hleftCut, hstray, hcut, hname⟩
    have hmember : isBoundary o.left.member = false := by
      rw [isBoundary, eq_of_beq hidentifier]
    exact ⟨⟨hidentifier, (o.left.isBoolean_left_iff hmember).mpr ⟨hleftCut, hstray⟩⟩, hcut, hname⟩

/-- A statement `var v = G.m & H.n;` is reported if and only if both types are cut by a comma or by the word `when`, and
the pieces that touch the operator are taken for comparisons. -/
theorem reported_iff {s : Subject} (hplaces : (s.significant.map (·.start.place)).Nodup) {front behind : List Token}
    (hs : s.significant = front ++ o.tokens ++ behind) :
    (∃ v ∈ check s, ∃ t ∈ o.tokens, v.place = t.start.place) ↔ o.IsMisread := by
  have hsplit : s.significant = (front ++ [o.word.token, o.name, o.assign.token] ++ o.left.tokens) ++
      o.operator :: (o.right.tokens ++ o.semicolon.token :: behind) := by
    rw [hs, tokens]
    simp
  have hoperator : (∃ v ∈ check s, v.place = o.operator.start.place) ↔ o.IsMisread := by
    rw [exists_violation_append_iff hplaces hsplit]
    exact o.finding?_isSome_iff front behind
  rw [← hoperator]
  constructor
  · rintro ⟨v, hv, t, ht, hplace⟩
    have hmem : t ∈ s.significant := by
      rw [hs]
      exact List.mem_append_left _ (List.mem_append_right _ ht)
    obtain ⟨i, hi⟩ := List.mem_iff_getElem?.mp hmem
    have hshort := isSome_shortForm? hi ((exists_violation_iff hplaces hi).mp ⟨v, hv, hplace⟩)
    rw [o.eq_operator ht hshort] at hplace
    exact ⟨v, hv, hplace⟩
  · rintro ⟨v, hv, hplace⟩
    exact ⟨v, hv, o.operator, by simp [tokens], hplace⟩

/-- Two marks `>` that are written flush are a shift for the check. Nothing is reported behind `Box<Pair<A, B>>`, though
`B>>.First` is a piece of it. -/
theorem reported_iff_flush :
    let source := "class C \x7b void M() \x7b var v = Box<Pair<A, B>>.First & Pair<A, B>.Second; \x7d \x7d"
    let s := Subject.ofStream ⟨"C.cs"⟩ source (.ofSource source) none .unknown
    let span (i : Nat) := s.significant[i]!.span
    let name (text : String) (i : Nat) : PlainType := ⟨⟨.identifier, text, span i⟩, .inl rfl⟩
    let pair (i : Nat) : GenericType :=
      ⟨name "Pair" i, ⟨span (i + 1)⟩, .list (.plain (name "A" (i + 2))) ⟨span (i + 3)⟩ (.plain (name "B" (i + 4))),
        ⟨span (i + 5)⟩⟩
    let box : GenericType :=
      ⟨name "Box" 11, ⟨span 12⟩, .generic (pair 13).name (pair 13).opening (pair 13).arguments (pair 13).closing,
        ⟨span 19⟩⟩
    let o : MemberOperation :=
      { word := ⟨span 8⟩, name := (name "v" 9).token, isName := rfl, assign := ⟨span 10⟩
        left := ⟨box, ⟨span 20⟩, (name "First" 21).token, rfl⟩
        operator := ⟨.punctuation, "&", span 22⟩, isShort := rfl
        right := ⟨pair 23, ⟨span 29⟩, (name "Second" 30).token, rfl⟩, semicolon := ⟨span 31⟩ }
    s.significant = s.significant.take 8 ++ o.tokens ++ s.significant.drop 32 ∧
      ¬∃ v ∈ check s, ∃ t ∈ o.tokens, v.place = t.start.place := by
  intro source s span name pair box o
  have htokens : s.significant = s.significant.take 8 ++ o.tokens ++ s.significant.drop 32 := by decide +kernel
  have hshift : ¬hasStrayAngle (o.left.type.tokens.rtakeWhile (!isBoundary ·)) := by decide +kernel
  refine ⟨htokens, fun hreported => hshift ?_⟩
  exact ((o.reported_iff (TokenStream.nodup_places source) htokens).mp hreported).left_stray

/-- Both types are cut by their commas, and `int>.Count` and `Dictionary<string` are taken for comparisons. -/
theorem reported_two_arguments :
    let source :=
      "class C \x7b void M() \x7b var v = Dictionary<string, int>.Count & Dictionary<string, int>.Size; \x7d \x7d"
    let s := Subject.ofStream ⟨"C.cs"⟩ source (.ofSource source) none .unknown
    let span (i : Nat) := s.significant[i]!.span
    let name (text : String) (i : Nat) : PlainType := ⟨⟨.identifier, text, span i⟩, .inl rfl⟩
    let dictionary (i : Nat) : GenericType :=
      ⟨name "Dictionary" i, ⟨span (i + 1)⟩, .list (.plain ⟨⟨.keyword, "string", span (i + 2)⟩, .inr rfl⟩) ⟨span (i + 3)⟩
        (.plain ⟨⟨.keyword, "int", span (i + 4)⟩, .inr rfl⟩), ⟨span (i + 5)⟩⟩
    let o : MemberOperation :=
      { word := ⟨span 8⟩, name := (name "v" 9).token, isName := rfl, assign := ⟨span 10⟩
        left := ⟨dictionary 11, ⟨span 17⟩, (name "Count" 18).token, rfl⟩
        operator := ⟨.punctuation, "&", span 19⟩, isShort := rfl
        right := ⟨dictionary 20, ⟨span 26⟩, (name "Size" 27).token, rfl⟩, semicolon := ⟨span 28⟩ }
    s.significant = s.significant.take 8 ++ o.tokens ++ s.significant.drop 29 ∧
      ∃ v ∈ check s, ∃ t ∈ o.tokens, v.place = t.start.place := by
  decide +kernel

end MemberOperation

end CSharpStyle.ShortCircuit
