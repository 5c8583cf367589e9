import CSharpStyle.Proofs.Lexical.Delimited
import CSharpStyle.Proofs.Lexical.Lines

/-!
# Texts that are one literal

A string literal has marks `$` and `@`, then its quotes.  The marks say which characters end the string that one quote
opens (`Opened.string`), and three or more quotes open a raw string whatever the marks are, apart from a single `@`.

* `isLiteral_iff_of_one_quote`, `isLiteral_iff_of_raw`: a text is one literal if and only if what is behind its opening
  quotes closes the string.
-/

namespace CSharpStyle

/-- The text is read as one literal, without anything in front or behind and without an error. -/
def IsLiteral (text : String) : Prop :=
  (Lexer.ofSource text).items = [.token ⟨.literal, text, ⟨.start, Position.start.advance text.toList⟩⟩]

instance (text : String) : Decidable (IsLiteral text) := inferInstanceAs (Decidable (_ = _))

/-! ### From the lexer to the stack -/

theorem isLiteral_iff {text : String} {c : Char} {ahead : List Char} (htext : text.toList = c :: ahead) :
    IsLiteral text ↔
      (Lexeme.ofText true c ahead).kind = .ok .literal ∧ (Lexeme.ofText true c ahead).rest = [] := by
  have hsplit := Lexeme.taken_append_rest true c ahead
  have hitems := Lexer.items_cons .start true c ahead
  rw [IsLiteral, Lexer.ofSource, htext, hitems]
  constructor
  · intro h
    obtain ⟨hitem, hafter⟩ := List.cons.inj h
    constructor
    · unfold Lexer.itemOf at hitem
      split at hitem
      · rename_i kind hkind
        injection hitem with htoken
        injection htoken with hliteral
        rw [hkind, hliteral]
      · cases hitem
    · cases hrest : (Lexeme.ofText true c ahead).rest with
      | nil => rfl
      | cons d rest =>
        rw [hrest, Lexer.items_cons] at hafter
        cases hafter
  · rintro ⟨hkind, hrest⟩
    rw [hrest, List.append_nil] at hsplit
    rw [Lexer.itemOf, hkind, hrest, hsplit, Lexer.items_of_stop rfl, ← htext]
    simp

theorem isLiteral_iff_closes {text : String} {stack : List Opened}
    (h : Lexeme.opening? text.toList = some (.literal, stack)) :
    IsLiteral text ↔ Opened.Closes stack text.toList := by
  cases htext : text.toList with
  | nil => rw [htext] at h; cases h
  | cons c ahead =>
    rw [htext] at h
    rw [isLiteral_iff htext, Lexeme.ofText_of_opening h, Opened.closes_iff, Lexeme.delimited]
    simp only
    cases (Opened.read stack (c :: ahead)).fault <;> simp

/-! ### Marks and quotes -/

/-- The marks in front of the quotes of a string. -/
def isSigil (c : Char) : Bool := c == '$' || c == '@'

/-- The marks that begin a string literal when a quote follows: none, `@`, or any that begin with `$` or `@$`. -/
def OpensString (sigils : List Char) : Prop :=
  sigils = [] ∨ sigils = ['@'] ∨ (∀ c ∈ sigils, isSigil c) ∧ (['$'] <+: sigils ∨ ['@', '$'] <+: sigils)

/-- The string that one quote opens behind its marks. -/
def Opened.string : List Char → Opened
  | [] => regularString
  | ['@'] => verbatimString
  | sigils => interpolatedString (sigils.contains '@')

theorem isSigil_iff {c : Char} : isSigil c ↔ c = '$' ∨ c = '@' := by
  simp [isSigil]

theorem OpensString.isSigil {sigils : List Char} (h : OpensString sigils) : ∀ c ∈ sigils, isSigil c := by
  rcases h with rfl | rfl | ⟨h, -⟩
  · simp
  · simp [CSharpStyle.isSigil]
  · exact h

section

variable {sigils ahead : List Char}

theorem takeWhile_sigils (h : ∀ c ∈ sigils, isSigil c) : (sigils ++ '"' :: ahead).takeWhile isSigil = sigils := by
  rw [List.takeWhile_append_of_pos h]
  simp [isSigil]

theorem dropWhile_sigils (h : ∀ c ∈ sigils, isSigil c) :
    (sigils ++ '"' :: ahead).dropWhile isSigil = '"' :: ahead := by
  rw [List.dropWhile_append_of_pos h]
  simp [isSigil]

theorem opening_sigils (h : OpensString sigils) :
    Lexeme.opening? (sigils ++ '"' :: ahead) = some (.literal,
      List.replicate sigils.length .anyCharacter ++
        if sigils = ['@'] then [.anyCharacter, .verbatimString]
        else Lexeme.openingQuotes ('"' :: ahead) [.anyCharacter, .string sigils]) := by
  have htake : (sigils ++ '"' :: ahead).takeWhile isSigil = sigils := takeWhile_sigils h.isSigil
  have hdrop : (sigils ++ '"' :: ahead).dropWhile isSigil = '"' :: ahead := dropWhile_sigils h.isSigil
  have hinterpolated : Lexeme.openingInterpolated (sigils ++ '"' :: ahead) =
      List.replicate sigils.length .anyCharacter ++ Lexeme.openingQuotes ('"' :: ahead)
        [.anyCharacter, .interpolatedString (sigils.contains '@')] := by
    unfold isSigil at htake hdrop
    simp only [Lexeme.openingInterpolated, htake, hdrop]
    rfl
  rcases h with rfl | rfl | ⟨hsigils, ⟨others, rfl⟩ | ⟨others, rfl⟩⟩
  · rfl
  · rfl
  · have hstring : Opened.string ('$' :: others) = .interpolatedString (('$' :: others).contains '@') := rfl
    have hopening : Lexeme.opening? ('$' :: others ++ '"' :: ahead) =
        some (.literal, Lexeme.openingInterpolated ('$' :: others ++ '"' :: ahead)) := by
      cases others with
      | nil => rfl
      | cons d others =>
        rcases isSigil_iff.mp (hsigils d (by simp)) with rfl | rfl <;> rfl
    rw [List.singleton_append] at hinterpolated ⊢
    rw [hopening, hinterpolated, hstring, if_neg (by simp)]
  · have hopening : Lexeme.opening? ('@' :: '$' :: others ++ '"' :: ahead) =
        some (.literal, Lexeme.openingInterpolated ('@' :: '$' :: others ++ '"' :: ahead)) := rfl
    have hstring : Opened.string ('@' :: '$' :: others) = .interpolatedString (('@' :: '$' :: others).contains '@') :=
      rfl
    rw [List.cons_append, List.singleton_append] at hinterpolated ⊢
    rw [hopening, hinterpolated, hstring, if_neg (by simp)]

theorem isLiteral_iff_opened {text : String} (h : OpensString sigils) (htext : text.toList = sigils ++ '"' :: ahead) :
    IsLiteral text ↔
      Opened.Closes (if sigils = ['@'] then [.anyCharacter, .verbatimString]
        else Lexeme.openingQuotes ('"' :: ahead) [.anyCharacter, .string sigils]) ('"' :: ahead) := by
  rw [isLiteral_iff_closes (htext ▸ opening_sigils h), htext, Opened.closes_replicate_iff]

/-- One quote opens the string that its marks name. -/
theorem isLiteral_iff_of_one_quote {text : String} (h : OpensString sigils)
    (hquotes : sigils = ['@'] ∨ ¬ 3 ≤ (('"' :: ahead).takeWhile (· == '"')).length)
    (htext : text.toList = sigils ++ '"' :: ahead) : IsLiteral text ↔ Opened.Closes [.string sigils] ahead := by
  have hany (o : Opened) : Opened.Closes [.anyCharacter, o] ('"' :: ahead) ↔ Opened.Closes [o] ahead :=
    Opened.closes_replicate_iff [o] ['"'] ahead
  rw [isLiteral_iff_opened h htext]
  split
  · rename_i hat
    rw [hany, hat]
    rfl
  · rename_i hat
    rw [Lexeme.openingQuotes, if_neg (hquotes.resolve_left hat), hany]

/-- Three or more quotes open a raw string. -/
theorem isLiteral_iff_of_raw {text : String} {quotes : Nat} (h : OpensString sigils) (hat : sigils ≠ ['@'])
    (hquotes : 3 ≤ quotes) (hahead : ahead.head? ≠ some '"')
    (htext : text.toList = sigils ++ (List.replicate quotes '"' ++ ahead)) :
    IsLiteral text ↔ Opened.Closes [.rawString quotes 0] ahead := by
  obtain ⟨further, rfl⟩ : ∃ further, quotes = further + 1 := ⟨quotes - 1, by omega⟩
  have hfirst : List.replicate (further + 1) '"' ++ ahead = '"' :: (List.replicate further '"' ++ ahead) := rfl
  have hrun : (List.replicate (further + 1) '"' ++ ahead).takeWhile (· == '"') = List.replicate (further + 1) '"' := by
    rw [List.takeWhile_append_of_pos (by simp)]
    cases ahead <;> simp_all
  have hclosed := Opened.closes_replicate_iff [.rawString (further + 1) 0] (List.replicate (further + 1) '"') ahead
  rw [List.length_replicate] at hclosed
  rw [hfirst] at htext hrun
  rw [isLiteral_iff_opened h htext, if_neg hat, Lexeme.openingQuotes, hrun, List.length_replicate, if_pos hquotes,
    ← hfirst]
  exact hclosed

end

end CSharpStyle
