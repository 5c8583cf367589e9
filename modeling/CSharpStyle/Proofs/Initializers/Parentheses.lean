import CSharpStyle.Proofs.CoreGrammar.Syntax
import CSharpStyle.Proofs.Grammar.ClassFile
import CSharpStyle.Proofs.Initializers.Shapes

/-!
# Parentheses around an initializer

Parentheses around the whole text are taken off one pair after another, until there is none around what is left.

* `Unwraps`: a text and what is left of it.
* `classify_around`: parentheses around balanced text change nothing, and taking them off comes to an end.
-/

namespace CSharpStyle.Initializer

open Token CoreGrammar

section

variable {tokens inner : List Token}

theorem length_unwrapped (h : unwrapped? tokens = some inner) : inner.length + 2 = tokens.length := by
  obtain ⟨opener, closer, -, -, -, rfl⟩ := unwrapped?_eq_some_iff.mp h
  simp

/-- Taking `n` pairs of parentheses off a text leaves `core`. -/
inductive Unwraps : Nat → List Token → List Token → Prop
  | none {core : List Token} : Unwraps 0 core core
  | pair {n : Nat} {tokens inner core : List Token} (outer : unwrapped? tokens = some inner)
      (more : Unwraps n inner core) : Unwraps (n + 1) tokens core

namespace Unwraps

variable {n : Nat} {core : List Token}

theorem length_eq (h : Unwraps n tokens core) : core.length + 2 * n = tokens.length := by
  induction h with
  | none => rfl
  | pair outer more ih =>
    have := length_unwrapped outer
    omega

/-- A text is as apparent as what the parentheses around it leave. -/
theorem isApparent_eq (h : Unwraps n tokens core) : isApparent tokens = isApparent core := by
  induction h with
  | none => rfl
  | pair outer more ih =>
    obtain ⟨opener, closer, hopener, hinner, hcloser, rfl⟩ := unwrapped?_eq_some_iff.mp outer
    rw [isApparent_wrapped hopener hinner hcloser, ih]

/-- Taking off parentheses comes to an end. -/
theorem exists_core (tokens : List Token) : ∃ n core, Unwraps n tokens core ∧ unwrapped? core = Option.none := by
  induction hlength : tokens.length using Nat.strongRecOn generalizing tokens with
  | ind length ih =>
    cases h : unwrapped? tokens with
    | none => exact ⟨0, tokens, .none, h⟩
    | some inner =>
      obtain ⟨n, core, hcore, hend⟩ := ih inner.length (by have := length_unwrapped h; omega) inner rfl
      exact ⟨n + 1, core, .pair h hcore, hend⟩

end Unwraps

theorem IsBalanced.parentheses (pair : Parentheses) (h : IsBalanced tokens) : IsBalanced (pair.around tokens) :=
  h.around rfl rfl

theorem isApparent_parentheses (pair : Parentheses) (h : IsBalanced tokens) :
    isApparent (pair.around tokens) = isApparent tokens :=
  isApparent_wrapped rfl h rfl

end

/-- Any number of parentheses around a balanced text leaves its class as it is. Every text, balanced or not, is
classified after finitely many calls: each takes a pair of parentheses off, and the last one decides by the shape of
what is left. There the loop over the groups behind `new` leaves fewer tokens with each group. -/
theorem classify_around :
    (∀ (pairs : List Parentheses) {tokens : List Token}, IsBalanced tokens →
      classify (pairs.foldr Brackets.around tokens) = classify tokens) ∧
    (∀ tokens : List Token, ∃ n core, Unwraps n tokens core ∧ unwrapped? core = none ∧
      core.length + 2 * n = tokens.length ∧
      classify tokens = if isPlainlyApparent core then .apparent else .notApparent) ∧
    ∀ {tokens group behind : List Token}, splitGroup? 0 tokens = some (group, behind) →
      behind.length < tokens.length := by
  refine ⟨?wrapped, ?ends, fun h => length_behind_lt h⟩
  case wrapped =>
    intro pairs tokens h
    have hwrapped : IsBalanced (pairs.foldr Brackets.around tokens) ∧
        isApparent (pairs.foldr Brackets.around tokens) = isApparent tokens := by
      induction pairs with
      | nil => exact ⟨h, rfl⟩
      | cons pair pairs ih => exact ⟨ih.1.parentheses pair, (isApparent_parentheses pair ih.1).trans ih.2⟩
    rw [classify, classify, hwrapped.2]
  case ends =>
    intro tokens
    obtain ⟨n, core, hcore, hend⟩ := Unwraps.exists_core tokens
    refine ⟨n, core, hcore, hend, hcore.length_eq, ?_⟩
    rw [classify, hcore.isApparent_eq, isApparent_eq_or, hend]
    rfl

/-- Brackets of all kinds count alike: two pairs of parentheses around `new T(a[0}]`. -/
theorem classify_around_mixed :
    let text :=
      [keyword "new", identifier "T", mark "(", identifier "a", mark "[", identifier "i", mark "\x7d", mark "]"]
    let pairs : List Parentheses := [⟨⟨default⟩, ⟨default⟩⟩, ⟨⟨default⟩, ⟨default⟩⟩]
    IsBalanced text ∧ classify (pairs.foldr Brackets.around text) = classify text ∧
      splitGroup? 0 (text.drop 2) = some (text.drop 2, []) ∧ ([] : List Token).length < (text.drop 2).length := by
  intro text pairs
  have hbalanced : IsBalanced text := by decide
  have hgroup : splitGroup? 0 (text.drop 2) = some (text.drop 2, []) := by decide
  exact ⟨hbalanced, classify_around.1 pairs hbalanced, hgroup, classify_around.2.2 hgroup⟩

end CSharpStyle.Initializer
