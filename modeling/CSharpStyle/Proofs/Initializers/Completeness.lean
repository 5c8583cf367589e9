import CSharpStyle.Proofs.CoreGrammar.Syntax
import CSharpStyle.Proofs.Grammar.ClassFile
import CSharpStyle.Proofs.Initializers.Creation
import CSharpStyle.Proofs.Initializers.Shapes

/-!
# Continued initializers

An apparent text that goes on with a binary operator is apparent only if it is a cast: of the operand of a cast only the
first token is looked at. A creation that goes on with postfix operations is apparent only if each of them is a
bracketed group.

* `isApparent_append`: an apparent text in front of a token that is no part of a type and opens no bracket.
* `IsTypeName`: plain and qualified names of types.
* `Postfix`: an operation behind an expression.
* `classify_continued`: both kinds of continuation.
-/

namespace CSharpStyle.Initializer

open Token CoreGrammar

section

variable {t op : Token} {tokens inner operand rest : List Token}

/-! ### Behind an operator -/

def isBinaryOperator (t : Token) : Bool :=
  ["+", "*", "/", "%", "==", "!=", "&&", "||", "??"].any t.isPunctuation || t.isKeyword "is" || t.isKeyword "as"

theorem isTypeToken_of_isBinaryOperator (h : isBinaryOperator op) :
    isTypeToken op = false ∧ isOpener op = false := by
  obtain ⟨kind, text, span⟩ := op
  simp only [isBinaryOperator, List.any_cons, List.any_nil, isPunctuation, isKeyword, Bool.or_eq_true,
    Bool.and_eq_true, beq_iff_eq, Bool.or_false] at h
  casesm* _ ∨ _
  all_goals
    obtain ⟨rfl, rfl⟩ := ‹_ ∧ _›
    exact ⟨rfl, rfl⟩

/-- Some token of an apparent text is no token of a type. -/
theorem not_all_isTypeToken (h : isApparent tokens) : tokens.all isTypeToken = false := by
  rw [List.all_eq_false]
  rw [isApparent_eq_or, isPlainlyApparent] at h
  simp only [Bool.or_eq_true] at h
  obtain h | (h | h) | h := h
  · obtain ⟨inner, hinner, -⟩ := (Option.any_eq_true _ _).mp h
    obtain ⟨opener, closer, hopener, -, -, rfl⟩ := unwrapped?_eq_some_iff.mp hinner
    exact ⟨opener, List.mem_cons_self, by simp [isTypeToken_of_isPunctuation hopener]⟩
  · obtain ⟨t, ht, htokens⟩ := exists_of_isLiteralText h
    have hkind : t.kind = .literal := eq_of_beq ht
    refine ⟨t, ?_, by simp [isTypeToken, hkind]⟩
    rcases htokens with rfl | ⟨sign, -, -, rfl⟩ <;> simp
  · obtain ⟨new, afterNew, rfl, hnew, -⟩ := exists_of_isCreationText h
    obtain ⟨hkind, htext⟩ := Bool.and_eq_true_iff.mp hnew
    refine ⟨new, List.mem_cons_self, ?_⟩
    rw [isTypeToken, eq_of_beq hkind, eq_of_beq htext]
    decide
  · obtain ⟨opener, inner, closer, operand, hopener, -, -, rfl, -⟩ := isCastText_iff.mp h
    exact ⟨opener, List.mem_cons_self, by simp [isTypeToken_of_isPunctuation hopener]⟩

theorem isCast_append (hoperand : operand ≠ []) (rest : List Token) :
    isCast inner (operand ++ rest) = isCast inner operand := by
  obtain ⟨t, operand, rfl⟩ := List.exists_cons_of_ne_nil hoperand
  cases inner <;> rfl

/-- Behind what is apparent itself, no operand makes a cast. -/
theorem isCast_eq_false (h : isApparent inner) (operand : List Token) : isCast inner operand = false := by
  have hall := not_all_isTypeToken h
  cases inner with
  | nil => rfl
  | cons first more =>
    cases operand with
    | nil => rfl
    | cons t operand => rw [isCast, hall, Bool.false_and, Bool.false_and]

/-- An apparent text in front of a token that is no part of a type and opens no bracket is apparent only as a cast. -/
theorem isApparent_append (h : isApparent tokens) (htype : isTypeToken op = false) (hopen : isOpener op = false) :
    isApparent (tokens ++ op :: rest) = isCastText tokens := by
  by_cases hcast : isCastText tokens
  · obtain ⟨opener, inner, closer, operand, hopener, hinner, hcloser, rfl, hcast'⟩ := isCastText_iff.mp hcast
    have hoperand : operand ≠ [] := by
      rintro rfl
      rw [isCast_nil] at hcast'
      cases hcast'
    rw [hcast, List.cons_append, List.append_assoc, List.cons_append,
      isApparent_cast hopener hinner hcloser (by simp), isCast_append hoperand, hcast']
  rw [Bool.not_eq_true] at hcast
  rw [hcast]
  rw [isApparent_eq_or, isPlainlyApparent, hcast, Bool.or_false] at h
  simp only [Bool.or_eq_true] at h
  obtain h | h | h := h
  · obtain ⟨inner, hinner, happarent⟩ := (Option.any_eq_true _ _).mp h
    obtain ⟨opener, closer, hopener, hbalanced, hcloser, rfl⟩ := unwrapped?_eq_some_iff.mp hinner
    rw [List.cons_append, List.append_assoc, List.cons_append, List.nil_append,
      isApparent_cast hopener hbalanced hcloser (by simp), isCast_eq_false happarent]
  · exact isApparent_of_literal h op
  · obtain ⟨new, afterNew, rfl, hnew, hcomplete, -⟩ := exists_of_isCreationText h
    rw [List.cons_append, isApparent_new hnew (by simp), isCompleteCreation_append_eq_false hcomplete hopen htype]

end

/-! ### Behind a creation -/

/-- A name, or several with `.` or `::` between them. -/
inductive IsTypeName : List Token → Prop
  | name {t : Token} (named : t.isName || t.isBuiltInType) : IsTypeName [t]
  | qualified {t mark : Token} {rest : List Token} (named : t.isName || t.isBuiltInType)
      (qualifier : mark.isPunctuation "." || mark.isPunctuation "::") (more : IsTypeName rest) :
      IsTypeName (t :: mark :: rest)

/-- An operation behind an expression: `.name`, `(arguments)` or `[arguments]`. -/
inductive Postfix
  | member (dot : Mark ".") (name : Token) (named : name.isName)
  | call (parentheses : Parentheses) (arguments : List Token) (balanced : IsBalanced arguments)
  | index (brackets : Brackets "[" "]") (arguments : List Token) (balanced : IsBalanced arguments)

namespace Postfix

def tokens : Postfix → List Token
  | member dot name _ => [dot.token, name]
  | call parentheses arguments _ => parentheses.around arguments
  | index brackets arguments _ => brackets.around arguments

def isMember : Postfix → Bool
  | member .. => true
  | call .. | index .. => false

/-- Behind groups stand only groups as long as no member is accessed. -/
theorem onlyGroups_chain (chain : List Postfix) :
    onlyGroups (chain.flatMap tokens) = !chain.any isMember := by
  induction chain with
  | nil => simp [onlyGroups]
  | cons operation chain ih =>
    rw [List.flatMap_cons, List.any_cons]
    cases operation with
    | member dot name named => exact onlyGroups_of_not_isOpener rfl
    | call parentheses arguments balanced =>
      rw [tokens, Brackets.around, List.cons_append, List.append_assoc, List.cons_append,
        onlyGroups_group rfl balanced rfl]
      exact ih
    | index brackets arguments balanced =>
      rw [tokens, Brackets.around, List.cons_append, List.append_assoc, List.cons_append,
        onlyGroups_group rfl balanced rfl]
      exact ih

end Postfix

theorem isCreatedTypeToken_of_named {t : Token} (ht : t.isName || t.isBuiltInType) : isCreatedTypeToken t := by
  obtain ⟨kind, text, span⟩ := t
  cases kind <;> simp_all [isCreatedTypeToken, isTypeToken, isName, isBuiltInType, isIdentifier, isPunctuation, or_comm]

theorem IsTypeName.isCreatedTypeToken {type : List Token} (h : IsTypeName type) :
    ∀ t ∈ type, isCreatedTypeToken t := by
  induction h with
  | name named => simpa using isCreatedTypeToken_of_named named
  | qualified named qualifier more ih =>
    rw [List.forall_mem_cons, List.forall_mem_cons]
    refine ⟨isCreatedTypeToken_of_named named, ?_, ih⟩
    rcases Bool.or_eq_true_iff.mp qualifier with hmark | hmark
    all_goals
      obtain ⟨hkind, htext⟩ := eq_of_isPunctuation hmark
      simp [Initializer.isCreatedTypeToken, isTypeToken, isPunctuation, hkind, htext]

/-- A creation with postfix operations behind it is apparent if and only if they are all bracketed groups. -/
theorem isApparent_chain (new : Word "new") {type arguments : List Token}
    (htype : ∀ t ∈ type, isCreatedTypeToken t) (parentheses : Parentheses) (harguments : IsBalanced arguments)
    (chain : List Postfix) :
    isApparent (new.token :: (type ++ parentheses.around arguments ++ chain.flatMap Postfix.tokens)) =
      !chain.any Postfix.isMember := by
  rw [isApparent_new (by rfl) (by simp [Brackets.around]), List.append_assoc, isCompleteCreation_append htype,
    Brackets.around, List.cons_append, List.append_assoc, List.cons_append, isCompleteCreation_cons rfl,
    onlyGroups_group rfl harguments rfl]
  exact Postfix.onlyGroups_chain chain

theorem classify_eq_notApparent_iff {tokens : List Token} :
    classify tokens = .notApparent ↔ isApparent tokens = false := by
  cases h : isApparent tokens <;> simp [classify, h]

theorem classify_eq_apparent_iff {tokens : List Token} : classify tokens = .apparent ↔ isApparent tokens := by
  cases h : isApparent tokens <;> simp [classify, h]

/-- An apparent text is no longer apparent in front of a binary operator, whatever its operand is, if and only if it is
no cast. A creation is no longer apparent in front of postfix operations if and only if one of them names a member. -/
theorem classify_continued {tokens : List Token} {operator : Token} (operand : List Token) (new : Word "new")
    {type arguments : List Token} (parentheses : Parentheses) (chain : List Postfix) :
    (classify tokens = .apparent → isBinaryOperator operator →
      (classify (tokens ++ operator :: operand) = .notApparent ↔ isCastText tokens = false)) ∧
    (IsTypeName type → IsBalanced arguments →
      (classify (new.token :: (type ++ parentheses.around arguments ++ chain.flatMap Postfix.tokens)) = .notApparent ↔
        ∃ operation ∈ chain, operation.isMember)) := by
  constructor
  · intro h hoperator
    obtain ⟨htype, hopen⟩ := isTypeToken_of_isBinaryOperator hoperator
    rw [classify_eq_notApparent_iff, isApparent_append (classify_eq_apparent_iff.mp h) htype hopen]
  · intro htype harguments
    rw [classify_eq_notApparent_iff, isApparent_chain new htype.isCreatedTypeToken parentheses harguments chain,
      Bool.not_eq_false', List.any_eq_true]

/-- The text `new T(a)` in front of `== b`, and of `[i].F`. -/
theorem classify_continued_creation :
    let creation := [keyword "new", identifier "T", mark "(", identifier "a", mark ")"]
    let chain : List Postfix := [.index ⟨⟨default⟩, ⟨default⟩⟩ [identifier "i"] (by decide),
      .member ⟨default⟩ (identifier "F") rfl]
    classify creation = .apparent ∧ isBinaryOperator (mark "==") ∧
      (classify (creation ++ [mark "==", identifier "b"]) = .notApparent ↔ isCastText creation = false) ∧
      IsTypeName [identifier "T"] ∧ IsBalanced [identifier "a"] ∧
      (classify (creation ++ [mark "[", identifier "i", mark "]", mark ".", identifier "F"]) = .notApparent ↔
        ∃ operation ∈ chain, operation.isMember) := by
  intro creation chain
  have happarent : classify creation = .apparent := by decide +kernel
  have hname : IsTypeName [identifier "T"] := .name rfl
  have hbalanced : IsBalanced [identifier "a"] := by decide
  obtain ⟨hoperator, hchain⟩ := @classify_continued creation (mark "==") [identifier "b"] ⟨default⟩ [identifier "T"]
    [identifier "a"] ⟨⟨default⟩, ⟨default⟩⟩ chain
  exact ⟨happarent, rfl, hoperator happarent rfl, hname, hbalanced, hchain hname hbalanced⟩

/-- The text `(int)x` is apparent in front of `+ y` too, and `new T(a)` in front of `[i]`. -/
theorem classify_continued_apparent :
    classify [mark "(", keyword "int", mark ")", identifier "x"] = .apparent ∧
    classify ([mark "(", keyword "int", mark ")", identifier "x"] ++ [mark "+", identifier "y"]) = .apparent ∧
    classify ([keyword "new", identifier "T", mark "(", identifier "a", mark ")"] ++
      [mark "[", identifier "i", mark "]"]) = .apparent := by
  decide +kernel

end CSharpStyle.Initializer
