import CSharpStyle.Proofs.Findings.Distinct
import CSharpStyle.Proofs.Operands.Extent

/-!
# Operators between boolean operands

The check goes over the tokens once and looks at each from where it stands, so that what it reports at an operator
depends on the operands of this operator alone. An operator counts as binary if the token in front of it can end an
operand, and `>` is none of these tokens: an operator behind a type with type arguments is not reported.

* `findingAt?`: what is found at the token with a given number.
* `needless_eq_filterMap`, `exists_violation_iff`: the check finds this and nothing else, and reports it at the token.
* `exists_violation_append_iff`: what is found at a token between those in front of it and those behind it.
* `IsOperation`: an operator with its operands and what stands around them.
* `operation_reported_iff`: the operator is reported if and only if both operands are boolean and the left one does not
  end with `>`.
-/

namespace CSharpStyle.ShortCircuit

/-! ### Findings by number -/

/-- What is found at a token between those before it, the last one first, and those behind it. -/
def finding? (before : List Token) (t : Token) (rest : List Token) : Option (Token × String) :=
  (shortForm? t).bind fun short =>
    if before.head?.any endsOperand && isBoolean (leftOperand before) && isBoolean (rightOperand rest) then
      some (t, short)
    else none

/-- What is found at the token with the number `i`. -/
def findingAt? (tokens : List Token) (i : Nat) : Option (Token × String) :=
  tokens[i]?.bind fun t => finding? (tokens.take i).reverse t (tokens.drop (i + 1))

theorem needless_cons (before : List Token) (t : Token) (rest : List Token) :
    needless before (t :: rest) = (finding? before t rest).toList ++ needless (t :: before) rest := by
  rw [needless, finding?]
  cases shortForm? t with
  | none => rfl
  | some short =>
    simp only [Option.bind_some]
    split
    · rfl
    · rfl

theorem findingAt?_append (front : List Token) (t : Token) (rest : List Token) :
    findingAt? (front ++ t :: rest) front.length = finding? front.reverse t rest := by
  have hdrop : (front ++ t :: rest).drop (front.length + 1) = rest := by
    rw [List.append_cons]
    exact List.drop_left' (by rw [List.length_append, List.length_singleton])
  rw [findingAt?, List.getElem?_append_right (Nat.le_refl _), Nat.sub_self, List.getElem?_cons_zero, Option.bind_some,
    List.take_left, hdrop]

/-- The check looks at the tokens one by one, each from where it stands. -/
theorem needless_eq_filterMap (tokens : List Token) :
    needless [] tokens = (List.range tokens.length).filterMap (findingAt? tokens) := by
  -- The tokens passed so far stand in front of those that are still to come.
  have hpassed (front rest : List Token) : needless front.reverse rest =
      (List.range' front.length rest.length).filterMap (findingAt? (front ++ rest)) := by
    induction rest generalizing front with
    | nil => rfl
    | cons t rest ih =>
      have hnext := ih (front ++ [t])
      rw [List.reverse_append, List.reverse_singleton, List.singleton_append, List.append_assoc,
        List.singleton_append, List.length_append, List.length_singleton] at hnext
      rw [needless_cons, List.length_cons, List.range'_succ, List.filterMap_cons, findingAt?_append, hnext]
      cases finding? front.reverse t rest with
      | none => rfl
      | some found => rfl
  have hall := hpassed [] tokens
  rw [List.range_eq_range']
  exact hall

/-- What is found at a token is this token. -/
theorem getElem?_of_findingAt? {tokens : List Token} {i : Nat} {found : Token × String}
    (h : findingAt? tokens i = some found) : tokens[i]? = some found.1 := by
  obtain ⟨t, ht, hfound⟩ := Option.bind_eq_some_iff.mp h
  obtain ⟨short, -, hif⟩ := Option.bind_eq_some_iff.mp hfound
  obtain ⟨-, heq⟩ := Option.ite_none_right_eq_some.mp hif
  cases heq
  exact ht

/-- A violation is reported at a token if and only if something is found there, as no two tokens of a file stand at the
same place. -/
theorem exists_violation_iff {s : Subject} (hplaces : (s.significant.map (·.start.place)).Nodup) {i : Nat} {t : Token}
    (ht : s.significant[i]? = some t) :
    (∃ v ∈ check s, v.place = t.start.place) ↔ (findingAt? s.significant i).isSome := by
  rw [check, needless_eq_filterMap]
  constructor
  · rintro ⟨v, hv, hplace⟩
    obtain ⟨found, hfound, rfl⟩ := List.mem_map.mp hv
    obtain ⟨j, -, hj⟩ := List.mem_filterMap.mp hfound
    have hplace' : found.1.start.place = t.start.place := hplace
    have hnumber : j = i := by
      have hlt := (List.getElem?_eq_some_iff.mp (getElem?_of_findingAt? hj)).1
      refine (List.getElem?_inj (by rwa [List.length_map]) hplaces).mp ?_
      rw [List.getElem?_map, List.getElem?_map, getElem?_of_findingAt? hj, ht, Option.map_some, Option.map_some,
        hplace']
    rw [← hnumber, hj]
    rfl
  · intro hfound
    obtain ⟨found, hfound⟩ := Option.isSome_iff_exists.mp hfound
    have hi : i < s.significant.length := (List.getElem?_eq_some_iff.mp ht).1
    have htoken := getElem?_of_findingAt? hfound
    rw [ht] at htoken
    refine ⟨_, List.mem_map_of_mem (List.mem_filterMap.mpr ⟨i, List.mem_range.mpr hi, hfound⟩), ?_⟩
    rw [Option.some.inj htoken]
    rfl

/-- Only at operators with a short form something is found. -/
theorem isSome_shortForm? {tokens : List Token} {i : Nat} {t : Token} (ht : tokens[i]? = some t)
    (h : (findingAt? tokens i).isSome) : (shortForm? t).isSome := by
  obtain ⟨found, hfound⟩ := Option.isSome_iff_exists.mp h
  rw [findingAt?, ht, Option.bind_some] at hfound
  obtain ⟨short, hshort, -⟩ := Option.bind_eq_some_iff.mp hfound
  exact Option.isSome_iff_exists.mpr ⟨short, hshort⟩

/-- A violation is reported at a token if and only if something is found between what stands in front of it and what
stands behind it. -/
theorem exists_violation_append_iff {s : Subject} (hplaces : (s.significant.map (·.start.place)).Nodup)
    {front rest : List Token} {t : Token} (hs : s.significant = front ++ t :: rest) :
    (∃ v ∈ check s, v.place = t.start.place) ↔ (finding? front.reverse t rest).isSome := by
  have ht : s.significant[front.length]? = some t := by
    rw [hs, List.getElem?_append_right (Nat.le_refl _), Nat.sub_self, List.getElem?_cons_zero]
  rw [exists_violation_iff hplaces ht, hs, findingAt?_append]

/-! ### Operators between operands -/

/-- The operator stands between two operands, each of which ends at a bracket around it, at a boundary or with the file.
The left operand ends as an operand can, or with the `>` of type arguments. -/
structure IsOperation (front left : List Token) (operator : Token) (right behind : List Token) : Prop where
  isShort : (shortForm? operator).isSome
  isOperandLeft : IsOperand left
  isOperandRight : IsOperand right
  front_stops : ∀ t ∈ front.getLast?, opens t ∨ isBoundary t
  behind_stops : ∀ t ∈ behind.head?, closes t ∨ isBoundary t
  left_ends : ∀ t ∈ left.getLast?, endsOperand t ∨ t.isPunctuation ">"

instance (front left : List Token) (operator : Token) (right behind : List Token) :
    Decidable (IsOperation front left operator right behind) :=
  decidable_of_iff
    ((shortForm? operator).isSome ∧ IsOperand left ∧ IsOperand right ∧
      (∀ t ∈ front.getLast?, opens t ∨ isBoundary t) ∧ (∀ t ∈ behind.head?, closes t ∨ isBoundary t) ∧
      ∀ t ∈ left.getLast?, endsOperand t ∨ t.isPunctuation ">")
    ⟨fun ⟨hshort, hleft, hright, hfront, hbehind, hends⟩ => ⟨hshort, hleft, hright, hfront, hbehind, hends⟩,
      fun ⟨hshort, hleft, hright, hfront, hbehind, hends⟩ => ⟨hshort, hleft, hright, hfront, hbehind, hends⟩⟩

/-- The text ends with `>`. -/
def EndsWithAngle (tokens : List Token) : Prop := ∃ t ∈ tokens.getLast?, t.isPunctuation ">"

instance (tokens : List Token) : Decidable (EndsWithAngle tokens) :=
  decidable_of_iff (tokens.getLast?.any (·.isPunctuation ">")) (Option.any_eq_true ..)

theorem endsOperand_eq_false {t : Token} (h : t.isPunctuation ">") : endsOperand t = false := by
  obtain ⟨span, rfl⟩ := exists_eq_of_isPunctuation h
  rfl

variable {front left right behind : List Token} {operator : Token}

/-- An operator is taken as binary behind everything but `>`. -/
theorem IsOperation.any_endsOperand_iff (h : IsOperation front left operator right behind) :
    (front ++ left).reverse.head?.any endsOperand ↔ ¬EndsWithAngle left := by
  obtain ⟨body, last, rfl⟩ := (List.eq_nil_or_concat' left).resolve_left h.isOperandLeft.ne_nil
  have hhead : (front ++ (body ++ [last])).reverse.head? = some last := by
    rw [List.head?_reverse, ← List.append_assoc, List.getLast?_concat]
  have hends : EndsWithAngle (body ++ [last]) ↔ last.isPunctuation ">" := by
    rw [EndsWithAngle, List.getLast?_concat]
    simp
  rw [hhead, Option.any_some, hends]
  constructor
  · intro hlast hangle
    rw [endsOperand_eq_false hangle] at hlast
    cases hlast
  · intro hangle
    exact (h.left_ends last (List.getLast?_concat ..)).resolve_right hangle

/-- The operands that the check finds are those around the operator. -/
theorem IsOperation.finding?_eq (h : IsOperation front left operator right behind) :
    (finding? (front ++ left).reverse operator (right ++ behind)).isSome ↔
      isBoolean left ∧ isBoolean right ∧ ¬EndsWithAngle left := by
  obtain ⟨short, hshort⟩ := Option.isSome_iff_exists.mp h.isShort
  rw [finding?, hshort, Option.bind_some, h.isOperandLeft.leftOperand_eq h.front_stops,
    h.isOperandRight.rightOperand_eq h.behind_stops, ← h.any_endsOperand_iff, Option.isSome_ite, Bool.and_eq_true,
    Bool.and_eq_true, and_assoc, and_comm, and_assoc]

/-- An operator between two operands is reported if and only if both are boolean and the left one does not end with
`>`. -/
theorem operation_reported_iff {s : Subject} (h : IsOperation front left operator right behind)
    (hs : s.significant = front ++ left ++ operator :: (right ++ behind)) :
    leftOperand (front ++ left).reverse = left ∧ rightOperand (right ++ behind) = right ∧
      ((findingAt? s.significant (front ++ left).length).isSome ↔
        isBoolean left ∧ isBoolean right ∧ ¬EndsWithAngle left) ∧
      ((s.significant.map (·.start.place)).Nodup →
        ((∃ v ∈ check s, v.place = operator.start.place) ↔
          isBoolean left ∧ isBoolean right ∧ ¬EndsWithAngle left)) := by
  refine ⟨h.isOperandLeft.leftOperand_eq h.front_stops, h.isOperandRight.rightOperand_eq h.behind_stops, ?_, ?_⟩
  · rw [hs, findingAt?_append]
    exact h.finding?_eq
  · intro hplaces
    rw [exists_violation_append_iff hplaces hs]
    exact h.finding?_eq

/-- An operator behind the name of a type that is a keyword is reported. -/
theorem operation_reported_iff_type_keyword :
    let source := "class C \x7b void M() \x7b var ok = x is string & y == 1; \x7d \x7d"
    let s := Subject.ofStream ⟨"C.cs"⟩ source (.ofSource source) none .unknown
    let tokens := s.significant
    IsOperation (tokens.take 11) ((tokens.drop 11).take 3) tokens[14]! ((tokens.drop 15).take 3) (tokens.drop 18) ∧
      ∃ v ∈ check s, v.place = tokens[14]!.start.place := by
  intro source s tokens
  have hoperation : IsOperation (tokens.take 11) ((tokens.drop 11).take 3) tokens[14]! ((tokens.drop 15).take 3)
      (tokens.drop 18) := by decide +kernel
  have htokens : tokens = tokens.take 11 ++ (tokens.drop 11).take 3 ++
      tokens[14]! :: ((tokens.drop 15).take 3 ++ tokens.drop 18) := by decide +kernel
  have hboolean : isBoolean ((tokens.drop 11).take 3) ∧ isBoolean ((tokens.drop 15).take 3) ∧
      ¬EndsWithAngle ((tokens.drop 11).take 3) := by decide +kernel
  have hreported := (operation_reported_iff hoperation htokens).2.2.2 (TokenStream.nodup_places source)
  exact ⟨hoperation, hreported.mpr hboolean⟩

/-- Nothing is found behind a type with type arguments, though both operands are comparisons. -/
theorem not_reported_type_arguments :
    let source := "class C \x7b void M() \x7b var ok = x is List<int> & y == 1; \x7d \x7d"
    let s := Subject.ofStream ⟨"C.cs"⟩ source (.ofSource source) none .unknown
    let tokens := s.significant
    IsOperation (tokens.take 11) ((tokens.drop 11).take 6) tokens[17]! ((tokens.drop 18).take 3) (tokens.drop 21) ∧
      isBoolean ((tokens.drop 11).take 6) ∧ isBoolean ((tokens.drop 18).take 3) ∧ (check s).isEmpty := by
  decide +kernel

end CSharpStyle.ShortCircuit
