import CSharpStyle.Convention.ShortCircuit
import CSharpStyle.Proofs.Correspondence.Cursor

/-!
# Operands and where they end

An operand of `&` or `|` extends over brackets that it closes, up to a boundary outside of them or to a bracket around
it. Both operands are found by the same scan, from the operator to the left and to the right.

* `depthBehind`, `outside`: the brackets that tokens leave open, and the tokens outside brackets.
* `IsOperand`: the tokens of an operand; brackets are closed, and no boundary stands outside of them.
* `IsOperand.operand_append`, `IsOperand.operand_reverse_append`: the scan goes over an operand in both directions.
* `IsOperand.leftOperand_eq`, `IsOperand.rightOperand_eq`: the operands of an operator are those around it.
-/

namespace CSharpStyle.ShortCircuit

/-- The number of brackets that are open behind the tokens, if `depth` are open in front of them and none is closed that
was not opened. The kinds of the brackets are not compared. -/
def depthBehind : Nat → List Token → Option Nat
  | depth, [] => some depth
  | depth, t :: rest =>
    if opens t then depthBehind (depth + 1) rest
    else if closes t then if depth = 0 then none else depthBehind (depth - 1) rest
    else depthBehind depth rest

/-- The tokens outside brackets, if `depth` brackets are open in front of them. -/
def outside : Nat → List Token → List Token
  | _, [] => []
  | depth, t :: rest =>
    if opens t then outside (depth + 1) rest
    else if closes t then outside (depth - 1) rest
    else if depth = 0 then t :: outside depth rest
    else outside depth rest

/-- An operand is not empty, closes the brackets that it opens and no others, and has no boundary outside of them. -/
structure IsOperand (tokens : List Token) : Prop where
  ne_nil : tokens ≠ []
  balanced : depthBehind 0 tokens = some 0
  unbroken : ∀ t ∈ outside 0 tokens, isBoundary t = false

instance (tokens : List Token) : Decidable (IsOperand tokens) :=
  decidable_of_iff
    (tokens ≠ [] ∧ depthBehind 0 tokens = some 0 ∧ ∀ t ∈ outside 0 tokens, isBoundary t = false)
    ⟨fun ⟨hne, hbalanced, hunbroken⟩ => ⟨hne, hbalanced, hunbroken⟩,
      fun ⟨hne, hbalanced, hunbroken⟩ => ⟨hne, hbalanced, hunbroken⟩⟩

/-! ### Kinds of tokens -/

variable {t : Token}

/-- All that is asked of a punctuation mark follows from its text. -/
theorem exists_eq_of_isPunctuation {mark : String} (h : t.isPunctuation mark) :
    ∃ span, t = ⟨.punctuation, mark, span⟩ := by
  obtain ⟨hkind, htext⟩ := Token.eq_of_isPunctuation h
  rw [← hkind, ← htext]
  exact ⟨t.span, rfl⟩

theorem closes_eq_false (h : opens t) : closes t = false := by
  rcases Bool.or_eq_true_iff.mp h with hopen | hopen
  · obtain ⟨span, rfl⟩ := exists_eq_of_isPunctuation hopen
    rfl
  · obtain ⟨span, rfl⟩ := exists_eq_of_isPunctuation hopen
    rfl

/-- A boundary is no bracket. -/
theorem not_bracket_of_isBoundary (h : isBoundary t) : opens t = false ∧ closes t = false := by
  have hmark (mark : String) (hbracket : isBoundary ⟨.punctuation, mark, t.span⟩ = false) :
      t.isPunctuation mark = false := by
    refine Bool.eq_false_iff.mpr fun hpunctuation => ?_
    obtain ⟨span, rfl⟩ := exists_eq_of_isPunctuation hpunctuation
    rw [hbracket] at h
    cases h
  constructor
  · rw [opens, hmark "(" rfl, hmark "[" rfl]
    rfl
  · rw [closes, hmark ")" rfl, hmark "]" rfl]
    rfl

/-! ### The scan in both directions -/

variable {depth : Nat} {tokens rest : List Token}

/-- What is to be kept about an operand while it is scanned: it closes the brackets that are open, and has no boundary
outside of them. -/
private def Extends (depth : Nat) (tokens : List Token) : Prop :=
  depthBehind depth tokens = some 0 ∧ ∀ t ∈ outside depth tokens, isBoundary t = false

/-- The first token opens a bracket, closes one that is open, or is no boundary where it stands. -/
private theorem Extends.cases (h : Extends depth (t :: tokens)) :
    (opens t = true ∧ Extends (depth + 1) tokens) ∨
      (opens t = false ∧ closes t = true ∧ depth ≠ 0 ∧ Extends (depth - 1) tokens) ∨
      (opens t = false ∧ closes t = false ∧ (depth = 0 → isBoundary t = false) ∧ Extends depth tokens) := by
  obtain ⟨hdepth, houtside⟩ := h
  rw [depthBehind] at hdepth
  rw [outside] at houtside
  by_cases hopen : opens t
  · left
    rw [if_pos hopen] at hdepth houtside
    exact ⟨hopen, hdepth, houtside⟩
  · right
    rw [if_neg hopen] at hdepth houtside
    by_cases hclose : closes t
    · left
      rw [if_pos hclose] at hdepth houtside
      by_cases hzero : depth = 0
      · rw [if_pos hzero] at hdepth
        cases hdepth
      · rw [if_neg hzero] at hdepth
        exact ⟨Bool.eq_false_iff.mpr hopen, hclose, hzero, hdepth, houtside⟩
    · right
      rw [if_neg hclose] at hdepth houtside
      refine ⟨Bool.eq_false_iff.mpr hopen, Bool.eq_false_iff.mpr hclose, ?_, hdepth, ?_⟩
      · intro hzero
        rw [if_pos hzero] at houtside
        exact houtside t (List.mem_cons_self ..)
      · intro u hu
        refine houtside u ?_
        split
        · exact List.mem_cons_of_mem t hu
        · exact hu

private theorem operand_extends (h : Extends depth tokens) :
    operand opens closes depth (tokens ++ rest) = tokens ++ operand opens closes 0 rest := by
  induction tokens generalizing depth with
  | nil =>
    obtain rfl : depth = 0 := Option.some.inj h.1
    rfl
  | cons t tokens ih =>
    rw [List.cons_append, operand, List.cons_append]
    rcases h.cases with ⟨hopen, h⟩ | ⟨hopen, hclose, hdepth, h⟩ | ⟨hopen, hclose, hboundary, h⟩
    · rw [if_pos hopen, ih h]
    · rw [hopen, if_neg Bool.false_ne_true, if_pos hclose, if_neg hdepth, ih h]
    · have hstop : (depth = 0 && isBoundary t) = false := by
        by_cases hzero : depth = 0
        · rw [hboundary hzero, Bool.and_false]
        · simp [hzero]
      rw [hopen, hclose, if_neg Bool.false_ne_true, if_neg Bool.false_ne_true, hstop, if_neg Bool.false_ne_true, ih h]

/-- From the right, the brackets that the tokens close come first. The scan arrives at the first token inside as many
brackets as were open in front of it. -/
private theorem operand_extends_reverse (h : Extends depth tokens) :
    operand closes opens 0 (tokens.reverse ++ rest) = tokens.reverse ++ operand closes opens depth rest := by
  induction tokens generalizing depth rest with
  | nil =>
    obtain rfl : depth = 0 := Option.some.inj h.1
    rfl
  | cons t tokens ih =>
    rw [List.reverse_cons, List.append_assoc, List.append_assoc, List.singleton_append, List.singleton_append]
    rcases h.cases with ⟨hopen, h⟩ | ⟨hopen, hclose, hdepth, h⟩ | ⟨hopen, hclose, hboundary, h⟩
    · rw [ih h, operand, closes_eq_false hopen, if_neg Bool.false_ne_true, if_pos hopen, if_neg (Nat.succ_ne_zero _),
        Nat.add_sub_cancel]
    · rw [ih h, operand, if_pos hclose, Nat.sub_add_cancel (Nat.pos_of_ne_zero hdepth)]
    · have hstop : (depth = 0 && isBoundary t) = false := by
        by_cases hzero : depth = 0
        · rw [hboundary hzero, Bool.and_false]
        · simp [hzero]
      rw [ih h, operand, hopen, hclose, if_neg Bool.false_ne_true, if_neg Bool.false_ne_true, hstop,
        if_neg Bool.false_ne_true]

/-- Behind an operand the scan to the right goes on outside brackets. -/
theorem IsOperand.operand_append (h : IsOperand tokens) (rest : List Token) :
    operand opens closes 0 (tokens ++ rest) = tokens ++ operand opens closes 0 rest :=
  operand_extends ⟨h.balanced, h.unbroken⟩

/-- In front of an operand the scan to the left goes on outside brackets. -/
theorem IsOperand.operand_reverse_append (h : IsOperand tokens) (rest : List Token) :
    operand closes opens 0 (tokens.reverse ++ rest) = tokens.reverse ++ operand closes opens 0 rest :=
  operand_extends_reverse ⟨h.balanced, h.unbroken⟩

/-- The scan ends at a boundary and at a bracket around the operand. -/
theorem operand_eq_nil {inward outward : Token → Bool} (hinward : ∀ t, outward t → inward t = false)
    (hboundary : ∀ t, isBoundary t → inward t = false) (h : ∀ t ∈ rest.head?, outward t ∨ isBoundary t) :
    operand inward outward 0 rest = [] := by
  cases rest with
  | nil => rfl
  | cons t rest =>
    rw [operand]
    rcases h t rfl with hout | hbound
    · rw [hinward t hout, if_neg Bool.false_ne_true, if_pos hout, if_pos rfl]
    · by_cases hout : outward t
      · rw [hboundary t hbound, if_neg Bool.false_ne_true, if_pos hout, if_pos rfl]
      · rw [hboundary t hbound, if_neg Bool.false_ne_true, if_neg hout, hbound]
        rfl

/-- The right operand of an operator is the operand behind it. -/
theorem IsOperand.rightOperand_eq (h : IsOperand tokens) {behind : List Token}
    (hbehind : ∀ t ∈ behind.head?, closes t ∨ isBoundary t) : rightOperand (tokens ++ behind) = tokens := by
  have hstop : operand opens closes 0 behind = [] := by
    refine operand_eq_nil (fun t ht => ?_) (fun t ht => (not_bracket_of_isBoundary ht).1) hbehind
    refine Bool.eq_false_iff.mpr fun hopen => ?_
    rw [closes_eq_false hopen] at ht
    cases ht
  rw [rightOperand, h.operand_append, hstop, List.append_nil]

/-- The left operand of an operator is the operand in front of it. -/
theorem IsOperand.leftOperand_eq (h : IsOperand tokens) {front : List Token}
    (hfront : ∀ t ∈ front.getLast?, opens t ∨ isBoundary t) : leftOperand (front ++ tokens).reverse = tokens := by
  have hstop : operand closes opens 0 front.reverse = [] := by
    refine operand_eq_nil (fun t ht => closes_eq_false ht) (fun t ht => (not_bracket_of_isBoundary ht).2) ?_
    rwa [List.head?_reverse]
  rw [leftOperand, List.reverse_append, h.operand_reverse_append, hstop, List.append_nil, List.reverse_reverse]

end CSharpStyle.ShortCircuit
