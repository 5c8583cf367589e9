import CSharpStyle.Proofs.Initializers.Brackets

/-!
# Shapes of apparent initializers

An apparent text is a literal, a complete creation, a cast, or an apparent text in parentheses.

* `isApparent_eq_or`: the shapes.
* `unwrapped?_eq_some_iff` and `isCastText_iff`: what the shapes with a parenthesis in front are made of.
* `isApparent_new`, `isApparent_wrapped` and `isApparent_cast`: the shapes by their first token.
-/

namespace CSharpStyle.Initializer

open Token

/-- What stands inside the parentheses around a whole text. -/
def unwrapped? : List Token → Option (List Token)
  | [] => none
  | first :: rest =>
    if first.isPunctuation "(" then
      match splitGroup? 0 (first :: rest) with
      | some (group, []) => some group.tail.dropLast
      | _ => none
    else none

/-- A literal, possibly with a sign. -/
def isLiteralText : List Token → Bool
  | [t] => t.isLiteral
  | [sign, t] => (sign.isPunctuation "-" || sign.isPunctuation "+") && t.isLiteral
  | _ => false

/-- The word `new` and a complete creation behind it. -/
def isCreationText : List Token → Bool
  | first :: second :: rest => first.isKeyword "new" && isCompleteCreation (second :: rest)
  | _ => false

/-- A type in parentheses and the operand behind it. -/
def isCastText : List Token → Bool
  | [] => false
  | first :: rest =>
    first.isPunctuation "(" &&
      (splitGroup? 0 (first :: rest)).any fun split => isCast split.1.tail.dropLast split.2

/-- The text is apparent by itself, without parentheses around it. -/
def isPlainlyApparent (tokens : List Token) : Bool :=
  isLiteralText tokens || isCreationText tokens || isCastText tokens

section

variable {t first second : Token} {rest tokens inner operand : List Token}

theorem isOpener_of_isPunctuation (ht : t.isPunctuation "(") : isOpener t := by
  obtain ⟨hkind, htext⟩ := eq_of_isPunctuation ht
  simp [isOpener, hkind, htext]

theorem isTypeToken_of_isPunctuation (ht : t.isPunctuation "(") : isTypeToken t = false := by
  obtain ⟨hkind, htext⟩ := eq_of_isPunctuation ht
  simp [isTypeToken, hkind, htext]

@[simp]
theorem isCast_nil (inner : List Token) : isCast inner [] = false := by
  cases inner <;> rfl

/-- A text that begins with a parenthesis is no literal and no creation. -/
theorem isPlainlyApparent_of_isPunctuation (hfirst : first.isPunctuation "(") :
    isPlainlyApparent (first :: rest) = isCastText (first :: rest) := by
  obtain ⟨kind, text, span⟩ := first
  obtain ⟨rfl, rfl⟩ := eq_of_isPunctuation hfirst
  have hliteral : isLiteralText (⟨.punctuation, "(", span⟩ :: rest) = false := by
    match rest with
    | [] => rfl
    | [_] => rfl
    | _ :: _ :: _ => rfl
  have hcreation : isCreationText (⟨.punctuation, "(", span⟩ :: rest) = false := by
    cases rest <;> rfl
  rw [isPlainlyApparent, hliteral, hcreation, Bool.false_or, Bool.false_or]

theorem unwrapped?_of_isPunctuation (hfirst : first.isPunctuation "(" = false) :
    unwrapped? (first :: rest) = none := by
  simp [unwrapped?, hfirst]

theorem isCastText_of_isPunctuation (hfirst : first.isPunctuation "(" = false) :
    isCastText (first :: rest) = false := by
  simp [isCastText, hfirst]

/-- A text is apparent by itself, or by what stands inside the parentheses around it. -/
theorem isApparent_eq_or (tokens : List Token) :
    isApparent tokens = ((unwrapped? tokens).any isApparent || isPlainlyApparent tokens) := by
  match tokens with
  | [] => simp [isApparent, unwrapped?, isPlainlyApparent, isLiteralText, isCreationText, isCastText]
  | [t] =>
    have hgroup : splitGroup? 0 [t] = none := by
      unfold splitGroup?
      simp [splitGroup?]
    simp [isApparent, unwrapped?, isPlainlyApparent, isLiteralText, isCreationText, isCastText, hgroup]
  | first :: second :: rest =>
    rw [isApparent_cons_cons]
    by_cases hfirst : first.isPunctuation "("
    · have hsign : (first.isPunctuation "-" || first.isPunctuation "+") = false := by
        rw [isPunctuation_of_ne hfirst (by decide), isPunctuation_of_ne hfirst (by decide), Bool.or_self]
      have hnew : first.isKeyword "new" = false := by
        rw [isKeyword, (eq_of_isPunctuation hfirst).1]
        rfl
      rw [isPlainlyApparent_of_isPunctuation hfirst, hsign, hnew, if_pos hfirst, unwrapped?, if_pos hfirst, isCastText,
        hfirst]
      cases hsplit : splitGroup? 0 (first :: second :: rest) with
      | none => simp
      | some split =>
        obtain ⟨group, operand⟩ := split
        cases operand <;> simp
    · rw [Bool.not_eq_true] at hfirst
      rw [isPlainlyApparent, isCastText_of_isPunctuation hfirst, unwrapped?_of_isPunctuation hfirst, hfirst]
      by_cases hsign : first.isPunctuation "-" || first.isPunctuation "+"
      · have hnew : first.isKeyword "new" = false := by
          have hkind : first.kind = .punctuation := by
            rcases Bool.or_eq_true_iff.mp hsign with h | h <;> exact (eq_of_isPunctuation h).1
          rw [isKeyword, hkind]
          rfl
        cases rest <;> simp [isLiteralText, isCreationText, hsign, hnew]
      · rw [Bool.not_eq_true] at hsign
        cases rest <;> simp [isLiteralText, isCreationText, hsign]

/-! ### What the shapes are made of -/

theorem unwrapped?_eq_some_iff :
    unwrapped? tokens = some inner ↔
      ∃ opener closer, opener.isPunctuation "(" ∧ IsBalanced inner ∧ isCloser closer ∧
        tokens = opener :: (inner ++ [closer]) := by
  constructor
  · intro h
    obtain _ | ⟨opener, rest⟩ := tokens
    · cases h
    rw [unwrapped?] at h
    obtain ⟨hopener, h⟩ := Option.ite_none_right_eq_some.mp h
    split at h
    · rename_i group hsplit
      cases h
      obtain ⟨inner, closer, hinner, hcloser, rfl, rfl⟩ :=
        (splitGroup?_eq_some_iff (isOpener_of_isPunctuation hopener)).mp hsplit
      rw [inner_group]
      exact ⟨opener, closer, hopener, hinner, hcloser, rfl⟩
    · cases h
  · rintro ⟨opener, closer, hopener, hinner, hcloser, rfl⟩
    have hgroup := splitGroup?_around hinner (isOpener_of_isPunctuation hopener) hcloser []
    rw [unwrapped?, if_pos hopener, hgroup]
    simp

theorem exists_of_isLiteralText (h : isLiteralText tokens) :
    ∃ t, t.isLiteral ∧ (tokens = [t] ∨ ∃ sign, sign.kind = .punctuation ∧ sign.isPunctuation "(" = false ∧
      tokens = [sign, t]) := by
  match tokens, h with
  | [t], h => exact ⟨t, h, .inl rfl⟩
  | [sign, t], h =>
    obtain ⟨hsign, ht⟩ := Bool.and_eq_true_iff.mp h
    refine ⟨t, ht, .inr ⟨sign, ?_, ?_, rfl⟩⟩
    all_goals rcases Bool.or_eq_true_iff.mp hsign with hsign | hsign
    · exact (eq_of_isPunctuation hsign).1
    · exact (eq_of_isPunctuation hsign).1
    · exact isPunctuation_of_ne hsign (by decide)
    · exact isPunctuation_of_ne hsign (by decide)

theorem exists_of_isCreationText (h : isCreationText tokens) :
    ∃ new afterNew, tokens = new :: afterNew ∧ new.isKeyword "new" ∧ isCompleteCreation afterNew ∧ afterNew ≠ [] := by
  match tokens, h with
  | new :: second :: rest, h =>
    obtain ⟨hnew, hcomplete⟩ := Bool.and_eq_true_iff.mp h
    exact ⟨new, second :: rest, rfl, hnew, hcomplete, by simp⟩

theorem isCastText_iff :
    isCastText tokens ↔ ∃ opener inner closer operand, opener.isPunctuation "(" ∧ IsBalanced inner ∧
      isCloser closer ∧ tokens = opener :: (inner ++ closer :: operand) ∧ isCast inner operand := by
  constructor
  · intro h
    obtain _ | ⟨opener, rest⟩ := tokens
    · cases h
    obtain ⟨hopener, hsplit⟩ := Bool.and_eq_true_iff.mp h
    obtain ⟨⟨group, operand⟩, hsplit, hcast⟩ := (Option.any_eq_true _ _).mp hsplit
    obtain ⟨inner, closer, hinner, hcloser, rfl, rfl⟩ :=
      (splitGroup?_eq_some_iff (isOpener_of_isPunctuation hopener)).mp hsplit
    rw [inner_group] at hcast
    exact ⟨opener, inner, closer, operand, hopener, hinner, hcloser, rfl, hcast⟩
  · rintro ⟨opener, inner, closer, operand, hopener, hinner, hcloser, rfl, hcast⟩
    rw [isCastText, hopener, splitGroup?_around hinner (isOpener_of_isPunctuation hopener) hcloser operand]
    simpa [inner_group] using hcast

/-! ### Texts by their first token -/

theorem isApparent_new (hfirst : first.isKeyword "new") (hrest : rest ≠ []) :
    isApparent (first :: rest) = isCompleteCreation rest := by
  obtain ⟨second, rest, rfl⟩ := List.exists_cons_of_ne_nil hrest
  have hsign (mark : String) : first.isPunctuation mark = false := by
    rw [isPunctuation, eq_of_beq (Bool.and_eq_true_iff.mp hfirst).1]
    rfl
  rw [isApparent_cons_cons, hsign, hsign, hfirst]
  simp

/-- No text of several tokens is apparent that begins with a literal, or with a sign in front of more than one token. -/
theorem isApparent_of_literal (h : isLiteralText tokens) (second : Token) :
    isApparent (tokens ++ second :: rest) = false := by
  obtain ⟨t, ht, rfl | ⟨sign, hsign, hparen, rfl⟩⟩ := exists_of_isLiteralText h
  · have hkind : t.kind = .literal := eq_of_beq ht
    simp [isApparent_cons_cons, isPunctuation, isKeyword, hkind]
  · simp [isApparent_cons_cons, hparen, isKeyword, hsign]

/-- A parenthesis that is never closed begins nothing that is apparent. -/
theorem isApparent_unclosed {left : Nat} (hfirst : first.isPunctuation "(") (h : Leaves 0 left rest) :
    isApparent (first :: rest) = false := by
  have hgroup := splitGroup?_eq_none (isOpener_of_isPunctuation hfirst) h
  rw [isApparent_eq_or, isPlainlyApparent_of_isPunctuation hfirst, unwrapped?, isCastText, hgroup]
  simp

/-- Parentheses around a balanced text change nothing. The closing bracket may be of another kind. -/
theorem isApparent_wrapped {closer : Token} (hfirst : first.isPunctuation "(") (hinner : IsBalanced inner)
    (hcloser : isCloser closer) : isApparent (first :: (inner ++ [closer])) = isApparent inner := by
  have hgroup := splitGroup?_around hinner (isOpener_of_isPunctuation hfirst) hcloser []
  rw [isApparent_eq_or, isPlainlyApparent_of_isPunctuation hfirst, unwrapped?, isCastText, if_pos hfirst, hgroup]
  simp

/-- A parenthesised balanced text in front of another text is the type of a cast. -/
theorem isApparent_cast {closer : Token} (hfirst : first.isPunctuation "(") (hinner : IsBalanced inner)
    (hcloser : isCloser closer) (hoperand : operand ≠ []) :
    isApparent (first :: (inner ++ closer :: operand)) = isCast inner operand := by
  have hgroup := splitGroup?_around hinner (isOpener_of_isPunctuation hfirst) hcloser operand
  obtain ⟨t, operand, rfl⟩ := List.exists_cons_of_ne_nil hoperand
  rw [isApparent_eq_or, isPlainlyApparent_of_isPunctuation hfirst, unwrapped?, isCastText, if_pos hfirst, hgroup]
  simp [hfirst]

end

end CSharpStyle.Initializer
