import CSharpStyle.Proofs.Lexical.Delimited
import Mathlib.Data.List.TakeWhile

/-!
# Lexemes in front of a further line

A lexeme that is complete at the end of a text is the same lexeme when another line follows: where reading looks ahead,
the end of the line says the same as the end of the text.  The one exception is a backslash behind the quote of a
character literal, which takes the end of the line with it, but such a literal is malformed at the end of a text.
Lemmas on `ahead ++ '\n' :: b` are named with `line`.

* `Opened.read_line`: strings, character literals and comments that are closed.
* `Lexeme.ofText_line`: all lexemes apart from white space.
-/

namespace CSharpStyle

namespace Opened

variable {ahead b : List Char}

/-! ### What is closed at its end -/

theorem head_line {c : Char} (hc : c ≠ '\n') : (ahead ++ '\n' :: b).head? = some c ↔ ahead.head? = some c := by
  cases ahead with
  | nil => simp [hc.symm]
  | cons a ahead => rfl

theorem characterBody_line (h : (read (characterBody ahead) ahead).fault = none) :
    characterBody (ahead ++ '\n' :: b) = characterBody ahead := by
  rcases ahead with _ | ⟨a, _ | ⟨a', ahead⟩⟩
  · rfl
  · by_cases ha : a = '\\'
    · subst ha
      simp [characterBody, read, step, Extent.cons, faultAtEnd] at h
    · simp [characterBody, ha]
  · unfold characterBody
    split <;> simp_all

theorem read_line {stack : List Opened} {text : List Char} (h : (read stack text).fault = none) :
    read stack (text ++ '\n' :: b) = { read stack text with rest := (read stack text).rest ++ '\n' :: b } :=
  read_extend h (by simp)

end Opened

namespace Lexeme

variable {ahead b : List Char}

/-! ### Words, numbers and operators -/

theorem takeWhile_line {p : Char → Bool} (hp : p '\n' = false) (text : List Char) :
    (text ++ '\n' :: b).takeWhile p = text.takeWhile p := by
  induction text with
  | nil => simp [hp]
  | cons c text ih => cases hc : p c <;> simp [hc, ih]

theorem dropWhile_line {p : Char → Bool} (hp : p '\n' = false) (text : List Char) :
    (text ++ '\n' :: b).dropWhile p = text.dropWhile p ++ '\n' :: b := by
  induction text with
  | nil => simp [hp]
  | cons c text ih => cases hc : p c <;> simp [hc, ih]

theorem startsWithDigit_line (ahead : List Char) : startsWithDigit (ahead ++ '\n' :: b) = startsWithDigit ahead := by
  cases ahead <;> rfl

theorem splitNumber_line (hexadecimal : Bool) (previous : Char) (text : List Char) :
    splitNumber hexadecimal previous (text ++ '\n' :: b) =
      ((splitNumber hexadecimal previous text).1, (splitNumber hexadecimal previous text).2 ++ '\n' :: b) := by
  fun_induction splitNumber hexadecimal previous text with
  | case1 previous =>
    rw [List.nil_append, splitNumber, if_neg (by simp [continuesNumber])]
  | case2 previous c ahead hc digits rest hrest ih =>
    rw [List.cons_append, splitNumber, continuesNumber, startsWithDigit_line, ← continuesNumber, if_pos hc, ih, hrest]
  | case3 previous c ahead hc =>
    rw [List.cons_append, splitNumber, continuesNumber, startsWithDigit_line, ← continuesNumber, if_neg hc]

theorem isPrefixOf_line {word : List Char} (hword : '\n' ∉ word) (text : List Char) :
    word.isPrefixOf (text ++ '\n' :: b) = word.isPrefixOf text := by
  induction word generalizing text with
  | nil => rfl
  | cons c word ih =>
    simp only [List.mem_cons, not_or] at hword
    cases text with
    | nil => simp [List.isPrefixOf, Ne.symm hword.1]
    | cons d text => rw [List.cons_append, List.isPrefixOf, List.isPrefixOf, ih hword.2]

/-- No operator goes over the end of a line. -/
theorem punctuation_line (c : Char) (ahead : List Char) :
    punctuation c (ahead ++ '\n' :: b) =
      { punctuation c ahead with rest := (punctuation c ahead).rest ++ '\n' :: b } := by
  have hlines : ∀ operator ∈ operators, '\n' ∉ operator := by decide
  have hprefixes : ∀ operator ∈ operators,
      operator.isPrefixOf (c :: (ahead ++ '\n' :: b)) = operator.isPrefixOf (c :: ahead) :=
    fun operator hoperator => isPrefixOf_line (hlines operator hoperator) (c :: ahead)
  have hfind : operators.find? (·.isPrefixOf (c :: (ahead ++ '\n' :: b))) =
      operators.find? (·.isPrefixOf (c :: ahead)) := by
    rw [← List.head?_filter, ← List.head?_filter, List.filter_congr hprefixes]
  unfold punctuation
  rw [hfind]
  split
  · rename_i operator hoperator
    have hlength : operator.length ≤ (c :: ahead).length :=
      (List.isPrefixOf_iff_prefix.mp (List.find?_eq_some_iff_append.mp hoperator).1).length_le
    rw [List.length_cons] at hlength
    rw [List.take_append_of_le_length (by omega), List.drop_append_of_le_length (by omega)]
  · rfl

/-! ### What opens a lexeme -/

theorem openingQuotes_line (text : List Char) (otherwise : List Opened) :
    openingQuotes (text ++ '\n' :: b) otherwise = openingQuotes text otherwise := by
  unfold openingQuotes
  rw [takeWhile_line (by decide)]

/-- An interpolated string has a quote behind its marks, so that the end of the line is not among them. -/
theorem openingInterpolated_line {text : List Char}
    (h : (Opened.read (openingInterpolated text) text).fault = none) :
    openingInterpolated (text ++ '\n' :: b) = openingInterpolated text := by
  unfold openingInterpolated at h ⊢
  simp only [takeWhile_line (p := fun c => c == '$' || c == '@') (by decide),
    dropWhile_line (p := fun c => c == '$' || c == '@') (by decide), openingQuotes_line] at h ⊢
  cases hbody : text.dropWhile fun c => c == '$' || c == '@' with
  | nil =>
    have htext := List.takeWhile_append_dropWhile (p := fun c => c == '$' || c == '@') (l := text)
    rw [hbody] at h htext
    have hread := Opened.read_replicate (openingQuotes [] [.interpolatedString
      ((text.takeWhile fun c => c == '$' || c == '@').contains '@')]) (text.takeWhile fun c => c == '$' || c == '@') []
    rw [htext] at hread
    cases (congrArg Extent.fault hread).symm.trans h
  | cons c body => rfl

theorem opening_line {text : List Char} {kind : TokenKind} {stack : List Opened}
    (h : opening? text = some (kind, stack)) (hread : (Opened.read stack text).fault = none) :
    opening? (text ++ '\n' :: b) = some (kind, stack) := by
  have hliteral {opened opened' : List Opened} (h : opened = opened') :
      some (TokenKind.literal, opened) = some (TokenKind.literal, opened') := by rw [h]
  unfold opening? at h
  split at h <;> cases h
  case h_2 ahead => exact hliteral (openingQuotes_line ('"' :: ahead) _)
  case h_8 ahead => exact hliteral (congrArg (.anyCharacter :: ·) (Opened.characterBody_line hread))
  case h_1 | h_3 => rfl
  all_goals exact hliteral (openingInterpolated_line hread)

theorem opening_line_none {text : List Char} (h : opening? text = none) : opening? (text ++ '\n' :: b) = none := by
  rcases text with _ | ⟨c, _ | ⟨d, text⟩⟩
  · rfl
  · unfold opening? at h ⊢
    split at h <;> simp_all
  · unfold opening? at h ⊢
    split at h <;> simp_all

theorem number_line (c : Char) (ahead : List Char) :
    number c (ahead ++ '\n' :: b) = { number c ahead with rest := (number c ahead).rest ++ '\n' :: b } := by
  have hhead (x : Char) (hx : x ≠ '\n') : ((ahead ++ '\n' :: b).head? == some x) = (ahead.head? == some x) := by
    rw [Bool.eq_iff_iff, beq_iff_eq, beq_iff_eq, Opened.head_line hx]
  unfold number
  simp only [hhead 'x' (by decide), hhead 'X' (by decide), splitNumber_line]

/-- A lexeme that is not white space and is not malformed stays the same when another line follows. -/
theorem ofText_line {atLineStart : Bool} {c : Char} {ahead : List Char} (hc : Unicode.isWhitespace c = false)
    {kind : TokenKind} (h : (ofText atLineStart c ahead).kind = .ok kind) :
    ofText atLineStart c (ahead ++ '\n' :: b) =
      { ofText atLineStart c ahead with rest := (ofText atLineStart c ahead).rest ++ '\n' :: b } := by
  have hrun (kind : TokenKind) {p : Char → Bool} (hp : p '\n' = false) :
      run kind p c (ahead ++ '\n' :: b) =
        { run kind p c ahead with rest := (run kind p c ahead).rest ++ '\n' :: b } := by
    simp only [run, takeWhile_line hp, dropWhile_line hp]
  have hslash : ((ahead ++ '\n' :: b).head? == some '/') = (ahead.head? == some '/') := by
    rw [Bool.eq_iff_iff, beq_iff_eq, beq_iff_eq, Opened.head_line (by decide)]
  have hname : (ahead ++ '\n' :: b).head?.any startsIdentifier = ahead.head?.any startsIdentifier := by
    cases ahead with
    | nil => exact (by decide : startsIdentifier '\n' = false)
    | cons d ahead => rfl
  unfold ofText at h ⊢
  rw [hslash, hname, startsWithDigit_line]
  simp only [hc, Bool.false_eq_true, ↓reduceIte] at h ⊢
  split
  · exact hrun _ (by decide)
  split
  · exact hrun _ (by decide)
  rename_i hcomment hdirective
  rw [if_neg hcomment, if_neg hdirective] at h
  cases hopening : opening? (c :: ahead) with
  | some opened =>
    obtain ⟨opens, stack⟩ := opened
    have hfault : (Opened.read stack (c :: ahead)).fault = none := by
      rw [hopening] at h
      simp only [delimited] at h
      split at h
      · assumption
      · cases h
    have hsome : opening? (c :: (ahead ++ '\n' :: b)) = some (opens, stack) := opening_line hopening hfault
    have hread : Opened.read stack (c :: (ahead ++ '\n' :: b)) = _ := Opened.read_line (b := b) hfault
    rw [hsome]
    simp only [delimited, hread]
  | none =>
    have hnone : opening? (c :: (ahead ++ '\n' :: b)) = none := opening_line_none hopening
    rw [hnone]
    simp only
    split
    · exact hrun _ (by decide)
    split
    · exact number_line c ahead
    split
    · simp only [word, takeWhile_line (p := continuesIdentifier) (by decide),
        dropWhile_line (p := continuesIdentifier) (by decide)]
    · exact punctuation_line c ahead

end Lexeme

end CSharpStyle
