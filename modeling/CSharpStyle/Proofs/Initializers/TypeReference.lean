import CSharpStyle.Proofs.CoreGrammar.Syntax
import CSharpStyle.Proofs.Grammar.TypeText
import CSharpStyle.Proofs.Initializers.Completeness
import Mathlib.Data.List.TakeWhile

/-!
# Type references in initializers

Types are recognised in two ways: the reader of types follows their grammar, and initializers are looked through for
tokens that may belong to a type. The second way does not know the marks `*`, `(` and `)`, and a created type ends there
at the first square bracket.

* `isTypeToken_eq`: the marks that the second way does not know.
* `IsTypeReference`: a text that the reader of types consumes.
* `Cursor.exists_qualifiedNameRest`: what the reader consumes for a type without suffixes.
* `classify_typeReference`: which casts and creations are apparent.
-/

namespace CSharpStyle

open Token

/-! ### What the reader of types consumes -/

/-- A piece of a type's name: tokens of types, the last of which is no bracket. -/
structure IsNamePart (piece : List Token) : Prop where
  tokens : ∀ t ∈ piece, t.isTypeToken
  last : ∀ t ∈ piece.getLast?, t.isOpener = false ∧ t.isCloser = false

namespace IsNamePart

theorem nil : IsNamePart [] := ⟨by simp, by simp⟩

theorem append {first second : List Token} (hfirst : IsNamePart first) (hsecond : IsNamePart second) :
    IsNamePart (first ++ second) := by
  refine ⟨?_, ?_⟩
  · intro t ht
    exact (List.mem_append.mp ht).elim (hfirst.tokens t) (hsecond.tokens t)
  · intro t ht
    rw [List.getLast?_append] at ht
    cases hlast : second.getLast? with
    | none =>
      rw [hlast, Option.none_or] at ht
      exact hfirst.last t ht
    | some u =>
      rw [hlast, Option.some_or] at ht
      exact hsecond.last t (hlast.trans ht)

theorem concat {piece : List Token} {t : Token} (hpiece : ∀ t ∈ piece, t.isTypeToken) (ht : t.isTypeToken)
    (hopen : t.isOpener = false) (hclose : t.isCloser = false) : IsNamePart (piece ++ [t]) := by
  refine ⟨?_, ?_⟩
  · simpa [or_imp, forall_and] using ⟨hpiece, ht⟩
  · simpa using ⟨hopen, hclose⟩

end IsNamePart

theorem Token.isTypeToken_of_named {t : Token} (ht : t.isName || t.isBuiltInType) :
    t.isTypeToken ∧ t.isOpener = false ∧ t.isCloser = false := by
  obtain ⟨kind, text, span⟩ := t
  cases kind <;> simp_all [isTypeToken, Cursor.isTypeArgumentToken, isName, isBuiltInType, isIdentifier, isOpener,
    isCloser, or_comm]

namespace Cursor

variable {c d : Cursor}

theorem ahead_eq_cons {t : Token} (h : c.peek? = some t) : c.ahead = t :: c.next.ahead := by
  obtain ⟨before, _ | ⟨u, ahead⟩⟩ := c
  · cases h
  · cases h
    rfl

theorem exists_closeTypeArguments {depth : Nat} {before ahead : List Token}
    (h : closeTypeArguments depth before ahead = some d) :
    ∃ inner angle, ahead = inner ++ angle :: d.ahead ∧ angle.isPunctuation ">" ∧ ∀ t ∈ inner, t.isTypeToken := by
  fun_induction closeTypeArguments depth before ahead with
  | case1 | case6 => cases h
  | case3 depth before t ahead hopen hclose hlast =>
    cases h
    exact ⟨[], t, rfl, hclose, by simp⟩
  | case2 depth before t ahead hopen ih | case4 depth before t ahead hopen hclose hlast ih
  | case5 depth before t ahead hopen hclose htoken ih =>
    obtain ⟨inner, angle, heq, hangle, hinner⟩ := ih h
    refine ⟨t :: inner, angle, by rw [heq]; rfl, hangle, List.forall_mem_cons.mpr ⟨?_, hinner⟩⟩
    simp_all [isTypeToken]

theorem exists_skipTypeArguments (c : Cursor) :
    ∃ piece, c.ahead = piece ++ c.skipTypeArguments.ahead ∧ IsNamePart piece := by
  cases hread : c.typeArguments? with
  | none =>
    rw [skipTypeArguments, hread]
    exact ⟨[], rfl, .nil⟩
  | some d =>
    rw [skipTypeArguments, hread, Option.getD_some]
    cases hsees : c.sees "<" with
    | false =>
      rw [typeArguments?, eat?, hsees] at hread
      cases hread
    | true =>
      obtain ⟨t, hpeek, ht⟩ := exists_of_sees hsees
      rw [typeArguments?, eat?, hsees] at hread
      obtain ⟨inner, angle, hahead, hangle, hinner⟩ := exists_closeTypeArguments hread
      have hkind := (eq_of_isPunctuation hangle).1
      have htext := (eq_of_isPunctuation hangle).2
      refine ⟨t :: inner ++ [angle], ?_, .concat ?_ ?_ ?_ ?_⟩
      · rw [List.cons_append, List.cons_append, List.append_assoc, List.singleton_append, ← hahead]
        exact ahead_eq_cons hpeek
      · exact List.forall_mem_cons.mpr ⟨by simp [isTypeToken, ht], hinner⟩
      · simp [isTypeToken, hangle]
      · simp [isOpener, hkind, htext]
      · simp [isCloser, hkind, htext]

/-- Behind the first word of its name, the tokens of a type without suffixes. -/
theorem exists_qualifiedNameRest (c : Cursor) :
    ∃ piece, c.ahead = piece ++ c.qualifiedNameRest.ahead ∧ IsNamePart piece := by
  fun_induction qualifiedNameRest c with
  | case1 c named hqualifier ih =>
    obtain ⟨arguments, hnamed, harguments⟩ := exists_skipTypeArguments c
    obtain ⟨more, hahead, hmore⟩ := ih
    obtain ⟨hdots, hname⟩ := Bool.and_eq_true_iff.mp hqualifier
    obtain ⟨name, hpeek, hname⟩ := (Option.any_eq_true _ _).mp hname
    obtain ⟨mark, hmark, hdots⟩ : ∃ mark, named.peek? = some mark ∧ mark.isTypeToken := by
      rcases Bool.or_eq_true_iff.mp hdots with hsees | hsees
      all_goals
        obtain ⟨mark, hmark, hdots⟩ := exists_of_sees hsees
        obtain ⟨hkind, htext⟩ := eq_of_isPunctuation hdots
        exact ⟨mark, hmark, by simp [isTypeToken, isTypeArgumentToken, hkind, htext]⟩
    obtain ⟨htoken, hopen, hclose⟩ := isTypeToken_of_named (t := name) (by rw [hname, Bool.true_or])
    have hsegment : IsNamePart ([mark] ++ [name]) := .concat (by simpa using hdots) htoken hopen hclose
    refine ⟨arguments ++ ([mark] ++ [name] ++ more), ?_, harguments.append (hsegment.append hmore)⟩
    rw [hnamed, List.append_assoc, List.append_assoc, ← hahead]
    congr 1
    show named.ahead = mark :: name :: named.next.next.ahead
    rw [ahead_eq_cons hmark]
    congr 1
    exact ahead_eq_cons hpeek
  | case2 c named hqualifier => exact exists_skipTypeArguments c

end Cursor

namespace Initializer

open CoreGrammar

/-- The marks of types that initializers do not know. -/
def isUnknownMark (t : Token) : Bool := ["*", "(", ")"].any t.isPunctuation

theorem isTypeToken_iff (t : Token) : isTypeToken t ↔ t.isTypeToken ∧ isUnknownMark t = false := by
  obtain ⟨kind, text, span⟩ := t
  cases kind with
  | punctuation =>
    simp only [isTypeToken, Token.isTypeToken, Cursor.isTypeArgumentToken, isUnknownMark, isPunctuation,
      List.contains_iff_mem, List.any_cons, List.any_nil, Bool.or_eq_true, Bool.or_eq_false_iff, List.mem_cons,
      List.not_mem_nil, or_false, beq_self_eq_true, Bool.true_and, beq_iff_eq, beq_eq_false_iff_ne]
    constructor
    · rintro (rfl | rfl | rfl | rfl | rfl | rfl | rfl | rfl) <;> decide
    · rintro ⟨h, hstar, hopening, hclosing, -⟩
      simp only [hstar, hopening, hclosing, or_false] at h
      tauto
  | identifier | keyword | literal | comment | whitespace | directive =>
    simp [isTypeToken, Token.isTypeToken, Cursor.isTypeArgumentToken, isUnknownMark, isPunctuation]

theorem isCreatedTypeToken_iff (t : Token) :
    isCreatedTypeToken t ↔ t.isTypeToken ∧ isUnknownMark t = false ∧ t.isPunctuation "[" = false := by
  rw [isCreatedTypeToken, Bool.and_eq_true, isTypeToken_iff, Bool.not_eq_true', and_assoc]

/-- A type reference that begins with a name or a built-in type: the reader of types consumes all of it. -/
structure IsTypeReference (type : List Token) : Prop where
  head : type.head?.any fun t => t.isName || t.isBuiltInType
  consumed : (Cursor.type? ⟨[], type⟩).any (·.2.ahead.isEmpty)

instance (type : List Token) : Decidable (IsTypeReference type) :=
  decidable_of_iff (type.head?.any (fun t => t.isName || t.isBuiltInType) ∧
    (Cursor.type? ⟨[], type⟩).any (·.2.ahead.isEmpty)) ⟨fun h => ⟨h.1, h.2⟩, fun h => ⟨h.head, h.consumed⟩⟩

theorem IsTypeReference.exists_cons {type : List Token} (h : IsTypeReference type) :
    ∃ t rest, type = t :: rest ∧ (t.isName || t.isBuiltInType) := by
  obtain ⟨t, hhead, ht⟩ := (Option.any_eq_true _ _).mp h.head
  obtain ⟨u, rest, rfl⟩ := List.exists_cons_of_ne_nil (l := type) (by rintro rfl; cases hhead)
  cases hhead
  exact ⟨t, rest, rfl, ht⟩

/-- The name of the type is all of it: no nullable or pointer mark and no array rank stands behind it. -/
def IsSuffixFree : List Token → Prop
  | [] => False
  | t :: rest => (Cursor.qualifiedNameRest ⟨[t], rest⟩).ahead = []

instance : (type : List Token) → Decidable (IsSuffixFree type)
  | [] => inferInstanceAs (Decidable False)
  | t :: rest => inferInstanceAs (Decidable ((Cursor.qualifiedNameRest ⟨[t], rest⟩).ahead = []))

section

variable {type arguments : List Token} {x : Token}

/-- A type with balanced brackets, in parentheses in front of a name, is a cast if its tokens are known. -/
theorem isApparent_around_of_isBalanced (htype : IsTypeReference type) (parentheses : Parentheses)
    (hx : x.isIdentifier) (h : IsBalanced type) :
    isApparent (parentheses.around type ++ [x]) ↔ ∀ t ∈ type, isTypeToken t := by
  have hkind : x.kind = .identifier := eq_of_beq hx
  rw [Brackets.around, List.cons_append, List.append_assoc, List.singleton_append,
    isApparent_cast rfl h rfl (by simp)]
  obtain ⟨t, rest, rfl, ht⟩ := htype.exists_cons
  have hhead : (t.kind != .punctuation) = true := by
    obtain ⟨kind, text, span⟩ := t
    cases kind <;> simp_all [isName, isBuiltInType, isIdentifier]
  simp [isCast, hhead, hkind]

/-- Any type in parentheses in front of a name: a bracket may close the parenthesis too early. -/
theorem isApparent_around_iff (htype : IsTypeReference type) (parentheses : Parentheses) (hx : x.isIdentifier) :
    isApparent (parentheses.around type ++ [x]) ↔
      (IsBalanced type ∧ ∀ t ∈ type, isTypeToken t) ∨
        ∃ inner closer operand, type = inner ++ closer :: operand ∧ IsBalanced inner ∧ isCloser closer ∧
          isCast inner (operand ++ [parentheses.closing.token, x]) := by
  have hkind : x.kind = .identifier := eq_of_beq hx
  have hwhole := isApparent_around_of_isBalanced htype parentheses hx
  have hearly {inner operand : List Token} {closer : Token} (htext : type = inner ++ closer :: operand)
      (hinner : IsBalanced inner) (hcloser : isCloser closer) :
      isApparent (parentheses.around type ++ [x]) = isCast inner (operand ++ [parentheses.closing.token, x]) := by
    rw [htext, Brackets.around, List.cons_append, List.append_assoc, List.append_assoc, List.cons_append,
      isApparent_cast rfl hinner hcloser (by simp)]
    rfl
  constructor
  · intro h
    rcases leaves_or_exists_closer 0 type with ⟨_ | left, hleft⟩ | ⟨inner, closer, operand, htext, hinner, hcloser⟩
    · have hbalanced := leaves_zero_iff.mp hleft
      exact .inl ⟨hbalanced, (hwhole hbalanced).mp h⟩
    · -- The parenthesis behind the type closes a bracket of the type.
      have hname : Leaves left left [x] :=
        (Leaves.cons_other_iff (by simp [isOpener, hkind]) (by simp [isCloser, hkind])).mpr (Leaves.nil_iff.mpr rfl)
      have hclosing : Leaves (left + 1) left [parentheses.closing.token, x] := (Leaves.cons_closer_iff rfl).mpr hname
      rw [Brackets.around, List.cons_append, List.append_assoc, List.singleton_append,
        isApparent_unclosed rfl (hleft.append_iff.mpr hclosing)] at h
      cases h
    · have hinner := leaves_zero_iff.mp hinner
      exact .inr ⟨inner, closer, operand, htext, hinner, hcloser, hearly htext hinner hcloser ▸ h⟩
  · rintro (⟨hbalanced, hall⟩ | ⟨inner, closer, operand, htext, hinner, hcloser, h⟩)
    · exact (hwhole hbalanced).mpr hall
    · exact hearly htext hinner hcloser ▸ h

/-- The name of a type ends outside its brackets. -/
theorem IsSuffixFree.isNamePart (h : IsSuffixFree type) (htype : IsTypeReference type) : IsNamePart type := by
  obtain ⟨t, rest, rfl, ht⟩ := htype.exists_cons
  have hend : (Cursor.qualifiedNameRest ⟨[t], rest⟩).ahead = [] := h
  obtain ⟨piece, hahead, hpiece⟩ := Cursor.exists_qualifiedNameRest ⟨[t], rest⟩
  rw [hend, List.append_nil] at hahead
  have hrest : rest = piece := hahead
  subst hrest
  obtain ⟨htoken, hopen, hclose⟩ := isTypeToken_of_named ht
  have hfirst : IsNamePart ([] ++ [t]) := .concat (by simp) htoken hopen hclose
  exact hfirst.append hpiece

/-- A creation is apparent if no token of its type ends the type. -/
theorem isApparent_new_iff (htype : IsNamePart type) (new : Word "new") (parentheses : Parentheses)
    (harguments : IsBalanced arguments) :
    isApparent (new.token :: (type ++ parentheses.around arguments)) ↔ ∀ t ∈ type, isCreatedTypeToken t := by
  constructor
  · intro h
    refine Classical.byContradiction fun hall => ?_
    have hne : type.dropWhile isCreatedTypeToken ≠ [] := fun hnil => hall (List.dropWhile_eq_nil_iff.mp hnil)
    have hstop := List.head_dropWhile_not isCreatedTypeToken hne
    have hlast : ∀ t ∈ (type.dropWhile isCreatedTypeToken).getLast?, isOpener t = false ∧ isCloser t = false := by
      intro t ht
      refine htype.last t ?_
      rw [← List.takeWhile_append_dropWhile (p := isCreatedTypeToken) (l := type), List.getLast?_append_of_ne_nil _ hne]
      exact ht
    have hbehind : IsBalanced (parentheses.around arguments) := harguments.around rfl rfl
    have hgroups := onlyGroups_eq_false hne hlast hbehind
    rw [isApparent_new (by rfl) (by simp [Brackets.around]),
      ← List.takeWhile_append_dropWhile (p := isCreatedTypeToken) (l := type), List.append_assoc,
      isCompleteCreation_append fun t ht => List.mem_takeWhile_imp ht] at h
    obtain ⟨t, rest, hdrop⟩ := List.exists_cons_of_ne_nil hne
    simp only [hdrop, List.head_cons] at hstop
    rw [hdrop] at h hgroups
    rw [List.cons_append, isCompleteCreation_cons hstop, ← List.cons_append, hgroups] at h
    cases h
  · intro hall
    have h := isApparent_chain new hall parentheses harguments []
    simpa using h

end

/-- A type in parentheses makes a cast, and behind `new` a creation, if and only if the marks of the type are known: a
cast has no `*`, `(` or `)`, and a creation no `[` either. The reader of types takes any token inside an array rank, and
unmatched brackets between angle brackets. With these, a text is a cast if its tokens are those of types, or if this
holds as far as a bracket that closes the parenthesis in front of the type. -/
theorem classify_typeReference {type : List Token} (htype : IsTypeReference type) (parentheses : Parentheses) :
    (∀ {x : Token}, x.isIdentifier →
      (classify (parentheses.around type ++ [x]) = .apparent ↔
        (IsBalanced type ∧ ∀ t ∈ type, isTypeToken t) ∨
          ∃ inner closer operand, type = inner ++ closer :: operand ∧ IsBalanced inner ∧ isCloser closer ∧
            isCast inner (operand ++ [parentheses.closing.token, x]))) ∧
    (∀ {x : Token}, x.isIdentifier → IsBalanced type → (∀ t ∈ type, t.isTypeToken) →
      (classify (parentheses.around type ++ [x]) = .apparent ↔ ∀ t ∈ type, isUnknownMark t = false)) ∧
    ∀ (new : Word "new") {arguments : List Token}, IsSuffixFree type → IsBalanced arguments →
      (classify (new.token :: (type ++ parentheses.around arguments)) = .apparent ↔
        ∀ t ∈ type, isUnknownMark t = false ∧ t.isPunctuation "[" = false) := by
  refine ⟨?cast, ?known, ?creation⟩
  case cast =>
    intro x hx
    rw [classify_eq_apparent_iff]
    exact isApparent_around_iff htype parentheses hx
  case known =>
    intro x hx hbalanced htokens
    rw [classify_eq_apparent_iff, isApparent_around_of_isBalanced htype parentheses hx hbalanced]
    refine forall₂_congr fun t ht => ?_
    rw [isTypeToken_iff, htokens t ht]
    simp
  case creation =>
    intro new arguments hfree harguments
    have hpart := hfree.isNamePart htype
    rw [classify_eq_apparent_iff, isApparent_new_iff hpart new parentheses harguments]
    refine forall₂_congr fun t ht => ?_
    rw [isCreatedTypeToken_iff, hpart.tokens t ht]
    simp

/-- Qualified names and type arguments are known: `(List<N.T>)x` and `new List<N.T>(a)`. -/
theorem classify_typeReference_arguments :
    let type := [identifier "List", mark "<", identifier "N", mark ".", identifier "T", mark ">"]
    let parentheses : Parentheses := ⟨⟨default⟩, ⟨default⟩⟩
    IsTypeReference type ∧ (identifier "x").isIdentifier ∧ IsBalanced type ∧ (∀ t ∈ type, t.isTypeToken) ∧
      IsSuffixFree type ∧ IsBalanced [identifier "a"] ∧
      (classify (parentheses.around type ++ [identifier "x"]) = .apparent ↔
        ∀ t ∈ type, isUnknownMark t = false) ∧
      (classify (keyword "new" :: (type ++ parentheses.around [identifier "a"])) = .apparent ↔
        ∀ t ∈ type, isUnknownMark t = false ∧ t.isPunctuation "[" = false) := by
  intro type parentheses
  have htype : IsTypeReference type := by decide +kernel
  have hbalanced : IsBalanced type := by decide
  have htokens : ∀ t ∈ type, t.isTypeToken := by decide
  have hfree : IsSuffixFree type := by decide +kernel
  have harguments : IsBalanced [identifier "a"] := by decide
  exact ⟨htype, rfl, hbalanced, htokens, hfree, harguments,
    (classify_typeReference htype parentheses).2.1 rfl hbalanced htokens,
    (classify_typeReference htype parentheses).2.2 ⟨default⟩ hfree harguments⟩

/-- Neither `(int*)x` nor `new List<int[]>()` is apparent. -/
theorem classify_typeReference_unknown :
    let pointer := [keyword "int", mark "*"]
    let list := [identifier "List", mark "<", keyword "int", mark "[", mark "]", mark ">"]
    let parentheses : Parentheses := ⟨⟨default⟩, ⟨default⟩⟩
    (IsTypeReference pointer ∧ classify (parentheses.around pointer ++ [identifier "x"]) = .notApparent) ∧
      IsTypeReference list ∧ IsSuffixFree list ∧ IsBalanced [] ∧
      classify (keyword "new" :: (list ++ parentheses.around [])) = .notApparent := by
  decide +kernel

end Initializer

end CSharpStyle
