import CSharpStyle.Proofs.Initializers.Brackets

/-!
# Complete creations

Behind `new` stand the tokens of a type and then bracketed groups up to the end. The type ends at the first token that
is none of a type, or at a square bracket.

* `onlyGroups_induction`: nothing but groups, read group by group.
* `onlyGroups_eq_false`: what ends outside its brackets is not only groups, whatever group follows it.
* `isCompleteCreation_append`: the tokens of the type decide nothing.
-/

namespace CSharpStyle.Initializer

open Token

/-- A token of the type that is created: behind `new` a square bracket ends the type. -/
def isCreatedTypeToken (t : Token) : Bool := isTypeToken t && !t.isPunctuation "["

section

variable {t opener closer : Token} {rest inner behind tokens type : List Token}

theorem onlyGroups_of_not_isOpener (ht : isOpener t = false) : onlyGroups (t :: rest) = false := by
  rw [onlyGroups_cons, if_neg (by simp [ht])]

theorem onlyGroups_group (hopener : isOpener opener) (hinner : IsBalanced inner) (hcloser : isCloser closer) :
    onlyGroups (opener :: (inner ++ closer :: behind)) = onlyGroups behind := by
  rw [onlyGroups_cons, if_pos hopener, splitGroup?_around hinner hopener hcloser]

theorem onlyGroups_unclosed {left : Nat} (hopener : isOpener opener) (h : Leaves 0 left rest) :
    onlyGroups (opener :: rest) = false := by
  rw [onlyGroups_cons, if_pos hopener, splitGroup?_eq_none hopener h]

/-- A text of nothing but groups is empty, or a group and such a text. -/
@[elab_as_elim]
theorem onlyGroups_induction {motive : List Token → Prop} (nil : motive [])
    (group : ∀ {opener inner closer behind}, isOpener opener → IsBalanced inner → isCloser closer → motive behind →
      motive (opener :: (inner ++ closer :: behind)))
    (h : onlyGroups tokens) : motive tokens := by
  induction hlength : tokens.length using Nat.strongRecOn generalizing tokens with
  | ind length ih =>
    cases tokens with
    | nil => exact nil
    | cons t rest =>
      rw [onlyGroups_cons] at h
      split at h
      · rename_i hopener
        split at h
        · rename_i split behind hsplit
          have hbehind := length_behind_lt hsplit
          obtain ⟨inner, closer, hinner, hcloser, rfl, -⟩ := (splitGroup?_eq_some_iff hopener).mp hsplit
          exact group hopener hinner hcloser (ih behind.length (hlength ▸ hbehind) h rfl)
        · cases h
      · cases h

/-- Groups in front of a text decide nothing. -/
theorem onlyGroups_append (h : onlyGroups tokens) (rest : List Token) :
    onlyGroups (tokens ++ rest) = onlyGroups rest := by
  refine onlyGroups_induction ?nil ?group h
  case nil => rfl
  case group =>
    intro opener inner closer behind hopener hinner hcloser ih
    rw [List.cons_append, List.append_assoc, List.cons_append, onlyGroups_group hopener hinner hcloser, ih]

/-- Text that ends outside its brackets is not only groups, whatever balanced text follows it. -/
theorem onlyGroups_eq_false (hne : tokens ≠ [])
    (hlast : ∀ t ∈ tokens.getLast?, isOpener t = false ∧ isCloser t = false) (hrest : IsBalanced rest) :
    onlyGroups (tokens ++ rest) = false := by
  induction hlength : tokens.length using Nat.strongRecOn generalizing tokens with
  | ind length ih =>
    obtain ⟨t, more, rfl⟩ := List.exists_cons_of_ne_nil hne
    rw [List.cons_append]
    by_cases hopener : isOpener t
    · rcases leaves_or_exists_closer 0 more with ⟨left, hleft⟩ | ⟨inner, closer, behind, rfl, hinner, hcloser⟩
      · exact onlyGroups_unclosed hopener (hleft.append_iff.mpr (hrest.leaves left))
      · rw [List.append_assoc, List.cons_append, onlyGroups_group hopener (leaves_zero_iff.mp hinner) hcloser]
        by_cases hbehind : behind = []
        · subst hbehind
          have hplain := (hlast closer (List.getLast?_concat (l := t :: inner))).2
          rw [hcloser] at hplain
          cases hplain
        · refine ih behind.length ?_ hbehind ?_ rfl
          · simp only [← hlength, List.length_cons, List.length_append]
            omega
          · intro u hu
            refine hlast u ?_
            rw [show t :: (inner ++ closer :: behind) = (t :: inner ++ [closer]) ++ behind by simp,
              List.getLast?_append_of_ne_nil _ hbehind]
            exact hu
    · exact onlyGroups_of_not_isOpener (by simpa using hopener)

/-! ### The type -/

theorem isCompleteCreation_append (htype : ∀ t ∈ type, isCreatedTypeToken t) (rest : List Token) :
    isCompleteCreation (type ++ rest) = isCompleteCreation rest := by
  rw [isCompleteCreation, isCompleteCreation]
  congr 1
  exact List.dropWhile_append_of_pos htype

/-- Behind the type the groups begin. -/
theorem isCompleteCreation_cons (ht : isCreatedTypeToken t = false) :
    isCompleteCreation (t :: rest) = onlyGroups (t :: rest) := by
  rw [isCompleteCreation]
  congr 1
  exact List.dropWhile_cons_of_neg (by simpa [isCreatedTypeToken] using ht)

/-- A creation does not go on behind its groups with a token of another kind. -/
theorem isCompleteCreation_append_eq_false (h : isCompleteCreation tokens) (hopen : isOpener t = false)
    (htype : isTypeToken t = false) : isCompleteCreation (tokens ++ t :: rest) = false := by
  rw [isCompleteCreation] at h
  rw [isCompleteCreation, List.dropWhile_append]
  split
  · rw [List.dropWhile_cons_of_neg (by simp [htype])]
    exact onlyGroups_of_not_isOpener hopen
  · rw [onlyGroups_append h]
    exact onlyGroups_of_not_isOpener hopen

end

end CSharpStyle.Initializer
