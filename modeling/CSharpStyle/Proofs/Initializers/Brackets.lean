import CSharpStyle.Grammar.Initializer
import CSharpStyle.Proofs.Grammar.Brackets
import Mathlib.Data.List.Basic

/-!
# Groups of an initializer

A group ends with the first bracket that closes as many brackets as were opened, so that the text between its brackets
is balanced. The kinds of the brackets are not compared.

* `Leaves`: how many brackets are open behind a text that closes none which is not open.
* `IsBalanced`: no beginning of a text closes more brackets than it opens, and the whole as many.
* `splitGroup?_eq_some_iff`: where a group ends.
-/

namespace CSharpStyle.Initializer

open Token

/-- No beginning of the tokens closes more brackets than it opens, and all of them together close as many. -/
structure IsBalanced (tokens : List Token) : Prop where
  opened : ∀ n, (tokens.take n).countP isCloser ≤ (tokens.take n).countP isOpener
  closed : tokens.countP isCloser = tokens.countP isOpener

instance (tokens : List Token) : Decidable (IsBalanced tokens) :=
  decidable_of_iff
    ((∀ n ≤ tokens.length, (tokens.take n).countP isCloser ≤ (tokens.take n).countP isOpener) ∧
      tokens.countP isCloser = tokens.countP isOpener) <| by
    constructor
    · rintro ⟨hopened, hclosed⟩
      refine ⟨fun n => ?_, hclosed⟩
      by_cases hn : n ≤ tokens.length
      · exact hopened n hn
      · rw [List.take_of_length_le (by omega)]
        exact Nat.le_of_eq hclosed
    · intro h
      exact ⟨fun n _ => h.opened n, h.closed⟩

theorem isOpener_eq_false {t : Token} (h : isCloser t) : isOpener t = false := by
  refine Bool.eq_false_iff.mpr fun hopen => ?_
  rw [isCloser_eq_false hopen] at h
  cases h

/-- Behind `depth` open brackets the tokens close none that is not open, and leave `left` of them open. -/
structure Leaves (depth left : Nat) (tokens : List Token) : Prop where
  opened : ∀ n, (tokens.take n).countP isCloser ≤ depth + (tokens.take n).countP isOpener
  total : depth + tokens.countP isOpener = left + tokens.countP isCloser

theorem leaves_zero_iff {tokens : List Token} : Leaves 0 0 tokens ↔ IsBalanced tokens := by
  constructor
  · intro h
    exact ⟨fun n => by simpa using h.opened n, by have := h.total; omega⟩
  · intro h
    exact ⟨fun n => by simpa using h.opened n, by have := h.closed; omega⟩

namespace Leaves

variable {depth left : Nat} {t : Token} {rest : List Token}

theorem nil_iff : Leaves depth left [] ↔ depth = left := by
  constructor
  · intro h
    simpa using h.total
  · rintro rfl
    exact ⟨fun n => by simp, rfl⟩

/-- Brackets that are open in front of a text may stay open behind it. -/
theorem raise {tokens : List Token} (h : Leaves depth left tokens) : Leaves (depth + 1) (left + 1) tokens := by
  refine ⟨fun n => ?_, ?_⟩
  · have := h.opened n
    omega
  · have := h.total
    omega

private theorem cons_of {inner : Nat}
    (hdepth : inner + (if isCloser t then 1 else 0) = depth + if isOpener t then 1 else 0) :
    Leaves depth left (t :: rest) ↔ Leaves inner left rest := by
  have hcloser (tokens : List Token) : (t :: tokens).countP isCloser =
      tokens.countP isCloser + if isCloser t then 1 else 0 := List.countP_cons
  have hopener (tokens : List Token) : (t :: tokens).countP isOpener =
      tokens.countP isOpener + if isOpener t then 1 else 0 := List.countP_cons
  constructor
  · intro h
    refine ⟨fun n => ?_, ?_⟩
    · have hn := h.opened (n + 1)
      rw [List.take_succ_cons, hcloser, hopener] at hn
      omega
    · have htotal := h.total
      rw [hcloser, hopener] at htotal
      omega
  · intro h
    refine ⟨fun n => ?_, ?_⟩
    · cases n with
      | zero => simp
      | succ n =>
        have hn := h.opened n
        rw [List.take_succ_cons, hcloser, hopener]
        omega
    · have htotal := h.total
      rw [hcloser, hopener]
      omega

theorem cons_opener_iff (ht : isOpener t) : Leaves depth left (t :: rest) ↔ Leaves (depth + 1) left rest := by
  have hclose := isCloser_eq_false ht
  exact cons_of (by simp [ht, hclose])

theorem cons_closer_iff (ht : isCloser t) : Leaves (depth + 1) left (t :: rest) ↔ Leaves depth left rest := by
  have hopen := isOpener_eq_false ht
  exact cons_of (by simp [ht, hopen])

theorem cons_other_iff (hopen : isOpener t = false) (hclose : isCloser t = false) :
    Leaves depth left (t :: rest) ↔ Leaves depth left rest :=
  cons_of (by simp [hopen, hclose])

theorem not_cons_closer (ht : isCloser t) : ¬ Leaves 0 left (t :: rest) := by
  intro h
  have hfirst := h.opened 1
  simp [ht, isOpener_eq_false ht] at hfirst

/-- Text that closes no bracket but those that are open is read bracket by bracket. -/
@[elab_as_elim]
theorem induction {motive : Nat → List Token → Prop} (nil : motive left [])
    (opener : ∀ {depth t rest}, isOpener t → motive (depth + 1) rest → motive depth (t :: rest))
    (closer : ∀ {depth t rest}, isCloser t → motive depth rest → motive (depth + 1) (t :: rest))
    (other : ∀ {depth t rest}, isOpener t = false → isCloser t = false → motive depth rest →
      motive depth (t :: rest))
    {tokens : List Token} (h : Leaves depth left tokens) : motive depth tokens := by
  induction tokens generalizing depth with
  | nil =>
    rw [nil_iff.mp h]
    exact nil
  | cons t rest ih =>
    by_cases hopen : isOpener t
    · exact opener hopen (ih ((cons_opener_iff hopen).mp h))
    by_cases hclose : isCloser t
    · cases depth with
      | zero => exact absurd h (not_cons_closer hclose)
      | succ depth => exact closer hclose (ih ((cons_closer_iff hclose).mp h))
    · rw [Bool.not_eq_true] at hopen hclose
      exact other hopen hclose (ih ((cons_other_iff hopen hclose).mp h))

/-- What stands behind a text goes on with the brackets that the text leaves open. -/
theorem append_iff {between : Nat} {tokens : List Token} (h : Leaves depth between tokens) :
    Leaves depth left (tokens ++ rest) ↔ Leaves between left rest := by
  refine induction ?nil ?opener ?closer ?other h
  case nil => exact Iff.rfl
  case opener =>
    intro depth t tokens ht ih
    exact (cons_opener_iff ht).trans ih
  case closer =>
    intro depth t tokens ht ih
    exact (cons_closer_iff ht).trans ih
  case other =>
    intro depth t tokens hopen hclose ih
    exact (cons_other_iff hopen hclose).trans ih

end Leaves

/-- Balanced text leaves open what was open. -/
theorem IsBalanced.leaves {tokens : List Token} (h : IsBalanced tokens) (depth : Nat) : Leaves depth depth tokens := by
  induction depth with
  | zero => exact leaves_zero_iff.mpr h
  | succ depth ih => exact ih.raise

/-- Balanced text stays balanced between brackets. -/
theorem IsBalanced.around {opener closer : Token} {inner : List Token} (h : IsBalanced inner)
    (hopener : isOpener opener) (hcloser : isCloser closer) : IsBalanced (opener :: (inner ++ [closer])) := by
  have hinner : Leaves 1 1 inner := h.leaves 1
  have hlast : Leaves 1 0 [closer] := (Leaves.cons_closer_iff hcloser).mpr (Leaves.nil_iff.mpr rfl)
  exact leaves_zero_iff.mp ((Leaves.cons_opener_iff hopener).mpr (hinner.append_iff.mpr hlast))

/-- Some bracket of a text is the first that closes one which is not open, or there is none. -/
theorem leaves_or_exists_closer (depth : Nat) (tokens : List Token) :
    (∃ left, Leaves depth left tokens) ∨
      ∃ inner closer behind, tokens = inner ++ closer :: behind ∧ Leaves depth 0 inner ∧ isCloser closer := by
  induction tokens generalizing depth with
  | nil => exact .inl ⟨depth, Leaves.nil_iff.mpr rfl⟩
  | cons t rest ih =>
    -- What is said of the rest is said of the whole text, once the first token is accounted for.
    have hstep {depth' : Nat} (hcons : ∀ {left tokens}, Leaves depth left (t :: tokens) ↔ Leaves depth' left tokens) :
        (∃ left, Leaves depth left (t :: rest)) ∨
          ∃ inner closer behind, t :: rest = inner ++ closer :: behind ∧ Leaves depth 0 inner ∧ isCloser closer := by
      rcases ih depth' with ⟨left, hleft⟩ | ⟨inner, closer, behind, rfl, hinner, hcloser⟩
      · exact .inl ⟨left, hcons.mpr hleft⟩
      · exact .inr ⟨t :: inner, closer, behind, rfl, hcons.mpr hinner, hcloser⟩
    by_cases hopen : isOpener t
    · exact hstep (Leaves.cons_opener_iff hopen)
    by_cases hclose : isCloser t
    · cases depth with
      | zero => exact .inr ⟨[], t, rest, rfl, Leaves.nil_iff.mpr rfl, hclose⟩
      | succ depth => exact hstep (Leaves.cons_closer_iff hclose)
    · rw [Bool.not_eq_true] at hopen hclose
      exact hstep (Leaves.cons_other_iff hopen hclose)

section Rounds

variable {depth : Nat} {t : Token} {rest : List Token}

theorem splitGroup?_opener (ht : isOpener t) :
    splitGroup? depth (t :: rest) = (splitGroup? (depth + 1) rest).map fun split => (t :: split.1, split.2) := by
  simp [splitGroup?, ht]

theorem splitGroup?_closer (ht : isCloser t) :
    splitGroup? (depth + 2) (t :: rest) = (splitGroup? (depth + 1) rest).map fun split => (t :: split.1, split.2) := by
  simp [splitGroup?, isOpener_eq_false ht, ht]

theorem splitGroup?_last_closer (ht : isCloser t) : splitGroup? 1 (t :: rest) = some ([t], rest) := by
  simp [splitGroup?, isOpener_eq_false ht, ht]

theorem splitGroup?_other (hopen : isOpener t = false) (hclose : isCloser t = false) :
    splitGroup? depth (t :: rest) = (splitGroup? depth rest).map fun split => (t :: split.1, split.2) := by
  simp [splitGroup?, hopen, hclose]

end Rounds

/-- A group is looked for behind a text with the brackets that the text leaves open. -/
theorem splitGroup?_append {depth left : Nat} {tokens : List Token} (h : Leaves depth left tokens)
    (rest : List Token) :
    splitGroup? (depth + 1) (tokens ++ rest) =
      (splitGroup? (left + 1) rest).map fun split => (tokens ++ split.1, split.2) := by
  refine Leaves.induction ?nil ?opener ?closer ?other h
  case nil => simp
  case opener =>
    intro depth t tokens ht ih
    rw [List.cons_append, splitGroup?_opener ht, ih, Option.map_map]
    rfl
  case closer =>
    intro depth t tokens ht ih
    rw [List.cons_append, splitGroup?_closer ht, ih, Option.map_map]
    rfl
  case other =>
    intro depth t tokens hopen hclose ih
    rw [List.cons_append, splitGroup?_other hopen hclose, ih, Option.map_map]
    rfl

/-- A group that starts with `opener` is a balanced text between two brackets. -/
theorem splitGroup?_around {opener closer : Token} {inner : List Token} (h : IsBalanced inner)
    (hopener : isOpener opener) (hcloser : isCloser closer) (behind : List Token) :
    splitGroup? 0 (opener :: (inner ++ closer :: behind)) = some (opener :: (inner ++ [closer]), behind) := by
  rw [splitGroup?_opener hopener, splitGroup?_append (leaves_zero_iff.mpr h), splitGroup?_last_closer hcloser]
  rfl

/-- No group ends in a text behind an opening bracket that closes no other bracket than it opens. -/
theorem splitGroup?_eq_none {opener : Token} {rest : List Token} {left : Nat} (hopener : isOpener opener)
    (h : Leaves 0 left rest) : splitGroup? 0 (opener :: rest) = none := by
  rw [splitGroup?_opener hopener, ← List.append_nil rest, splitGroup?_append h]
  rfl

/-- Where a group ends: behind its opening bracket stand a balanced text and the bracket that closes the group. -/
theorem splitGroup?_eq_some_iff {opener : Token} {rest group behind : List Token} (hopener : isOpener opener) :
    splitGroup? 0 (opener :: rest) = some (group, behind) ↔
      ∃ inner closer, IsBalanced inner ∧ isCloser closer ∧ rest = inner ++ closer :: behind ∧
        group = opener :: (inner ++ [closer]) := by
  constructor
  · intro h
    rcases leaves_or_exists_closer 0 rest with ⟨left, hleft⟩ | ⟨inner, closer, behind', rfl, hinner, hcloser⟩
    · rw [splitGroup?_eq_none hopener hleft] at h
      cases h
    · have hinner := leaves_zero_iff.mp hinner
      rw [splitGroup?_around hinner hopener hcloser] at h
      cases h
      exact ⟨inner, closer, hinner, hcloser, rfl, rfl⟩
  · rintro ⟨inner, closer, hinner, hcloser, rfl, rfl⟩
    exact splitGroup?_around hinner hopener hcloser behind

/-- The text between the brackets of a group. -/
theorem inner_group (opener closer : Token) (inner : List Token) :
    (opener :: (inner ++ [closer])).tail.dropLast = inner := by
  rw [List.tail_cons, List.dropLast_concat]

end CSharpStyle.Initializer
