import CSharpStyle.Lexical.Lexer

/-!
# Identifiers of a file

A word is an identifier only if it is no keyword, and a keyword behind `@` keeps this mark in its text. What is read of
an identifier can therefore go by its text alone.

* `TokenStream.not_isKeyword_of_mem`: no identifier of a file is written like a keyword.
-/

namespace CSharpStyle

namespace Lexeme

variable {atLineStart : Bool} {c : Char} {ahead : List Char}

/-- No identifier is written like a keyword. -/
theorem not_isKeyword_of_identifier {lexeme : Lexeme} (hread : ofText atLineStart c ahead = lexeme)
    (h : lexeme.kind = .ok .identifier) : Keyword.isKeyword (String.ofList lexeme.taken) = false := by
  unfold ofText at hread
  split at hread
  · subst hread; cases h
  split at hread
  · subst hread; cases h
  split at hread
  · subst hread; cases h
  split at hread
  · rename_i kind stack hopening
    have hkind : kind ≠ .identifier := by
      unfold opening? at hopening
      split at hopening <;> cases hopening <;> rintro ⟨⟩
    subst hread
    simp only [delimited] at h
    split at h
    · exact absurd (Except.ok.inj h) hkind
    · cases h
  split at hread
  · -- Behind an `@` a keyword is a name, and no keyword begins with this mark.
    rename_i hescaped
    subst hread
    obtain rfl := eq_of_beq (Bool.and_eq_true_iff.mp hescaped).1
    have hat : ∀ word ∈ Keyword.reserved ++ Keyword.contextual, word.toList.head? ≠ some '@' := by decide
    refine Bool.eq_false_iff.mpr fun hkeyword => hat _ (by simpa [Keyword.isKeyword] using hkeyword) ?_
    rw [String.toList_ofList]
    rfl
  split at hread
  · subst hread; cases h
  split at hread
  · subst hread
    simp only [word, wordKind, Except.ok.injEq] at h ⊢
    split at h
    · cases h
    · split at h
      · cases h
      · rename_i hkeyword
        exact Bool.eq_false_iff.mpr hkeyword
  · subst hread
    unfold punctuation at h
    split at h
    · cases h
    · split at h <;> cases h

end Lexeme

/-- An identifier of a file has a character and is not written like a keyword. -/
theorem Lexer.not_isKeyword_of_mem {lexer : Lexer} {t : Token} (h : .token t ∈ lexer.items) (ht : t.isIdentifier) :
    t.text ≠ "" ∧ Keyword.isKeyword t.text = false := by
  fun_induction Lexer.items lexer with
  | case1 lexer hstop => cases h
  | case2 lexer item after hnext ih =>
    rcases List.mem_cons.mp h with rfl | h
    · unfold next? at hnext
      split at hnext
      · cases hnext
      · rename_i c ahead hrest
        simp only [Option.some.injEq, Prod.mk.injEq, itemOf] at hnext
        obtain ⟨hitem, -⟩ := hnext
        split at hitem
        · rename_i kind hkind
          cases hitem
          have hidentifier : kind = .identifier := eq_of_beq ht
          rw [hidentifier] at hkind
          refine ⟨?_, Lexeme.not_isKeyword_of_identifier rfl hkind⟩
          have := Lexeme.taken_ne_nil lexer.atLineStart c ahead
          simpa using this
        · cases hitem
    · exact ih h

theorem TokenStream.not_isKeyword_of_mem {source : String} {t : Token} (h : t ∈ (ofSource source).tokens)
    (ht : t.isIdentifier) : t.text ≠ "" ∧ Keyword.isKeyword t.text = false := by
  obtain ⟨item, hitem, htoken⟩ := List.mem_filterMap.mp h
  cases item with
  | token u =>
    cases htoken
    exact Lexer.not_isKeyword_of_mem hitem ht
  | error e => cases htoken

end CSharpStyle
