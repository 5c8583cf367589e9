import CSharpStyle.Proofs.Lexical.StringLiteral

/-!
# String literals in the holes of interpolated strings

An interpolated string holds expressions in braces, and these hold strings again.  Inside a hole the marks of a string
are read by themselves: only the last two in front of a quote count, and every quote opens a string of its own.  So a
literal can be read otherwise than outside.

* `Opened.closes_hole`: how the marks in front of a quote are read inside a hole.
* `nests_of_isKnownInHole`: literals of the forms that a hole knows.
* `nests_iff_isKnownInHole`: these are the only forms whose literals can all stand in a hole.
-/

namespace CSharpStyle

/-! ### Marks inside a hole -/

/-- The string that a quote opens behind its marks inside a hole. -/
def Opened.stringInHole : List Char → Opened
  | [] => regularString
  | ['@'] => verbatimString
  | ['$'] => interpolatedString false
  | ['$', '@'] => interpolatedString true
  | _ :: sigils => stringInHole sigils

namespace Opened

/-- The marks in front of a quote are passed one by one. -/
theorem closes_hole {sigils : List Char} (h : ∀ c ∈ sigils, isSigil c) (outer : List Opened) (ahead : List Char) :
    Closes (brace :: outer) (sigils ++ '"' :: ahead) ↔ Closes (stringInHole sigils :: brace :: outer) ahead := by
  fun_induction stringInHole sigils with
  | case1 | case2 | case3 | case4 =>
    rw [closes_iff, closes_iff]
    rfl
  | case5 c sigils hat hdollar hboth ih =>
    obtain ⟨hc, hsigils⟩ := List.forall_mem_cons.mp h
    have hpassed : brace.step c (sigils ++ '"' :: ahead) = .ok [brace] := by
      rcases sigils with _ | ⟨d, _ | ⟨e, sigils⟩⟩
      · rcases isSigil_iff.mp hc with rfl | rfl
        · exact absurd rfl (hdollar rfl)
        · exact absurd rfl (hat rfl)
      · have hd := isSigil_iff.mp (hsigils d (by simp))
        rcases isSigil_iff.mp hc with rfl | rfl <;> rcases hd with rfl | rfl
        · rfl
        · exact absurd rfl (hboth rfl)
        · rfl
        · rfl
      · have hd := isSigil_iff.mp (hsigils d (by simp))
        have he := isSigil_iff.mp (hsigils e (by simp))
        rcases isSigil_iff.mp hc with rfl | rfl <;> rcases hd with rfl | rfl <;> rcases he with rfl | rfl <;> rfl
    rw [List.cons_append, closes_cons_iff hpassed]
    exact ih hsigils

theorem stringInHole_cases (sigils : List Char) :
    stringInHole sigils ∈ [regularString, verbatimString, interpolatedString false, interpolatedString true] := by
  fun_induction stringInHole sigils with
  | case1 | case2 | case3 | case4 => simp
  | case5 c sigils hat hdollar hboth ih => exact ih

/-- Only the last two marks count. -/
theorem stringInHole_append (front : List Char) (x y : Char) :
    stringInHole (front ++ [x, y]) = stringInHole [x, y] := by
  induction front with
  | nil => rfl
  | cons c front ih =>
    have hlong : front ++ [x, y] ≠ [] ∧ front ++ [x, y] ≠ ['@'] := by
      cases front <;> simp
    rw [List.cons_append, stringInHole, ih]
    · simp [hlong.1]
    · simp [hlong.1]
    · simp [hlong.2]

end Opened

/-! ### Literals -/

/-- The text is one literal that has a quote behind its marks. -/
structure IsStringLiteral (text : String) : Prop where
  isLiteral : IsLiteral text
  quoted : (text.toList.dropWhile isSigil).head? = some '"'

/-- The text stands alone in the hole of an interpolated string, and the whole is one literal. -/
def Nests (text : String) : Prop := IsLiteral ("$\"\x7b" ++ text ++ "\x7d\"")

instance (text : String) : Decidable (Nests text) := inferInstanceAs (Decidable (IsLiteral _))

/-- How a literal begins: its marks, and whether its quotes open a raw string. -/
structure StringForm where
  sigils : List Char
  raw : Bool
  deriving DecidableEq, Repr

namespace StringForm

def of (text : List Char) : StringForm :=
  let sigils := text.takeWhile isSigil
  ⟨sigils, sigils != ['@'] && 3 ≤ ((text.dropWhile isSigil).takeWhile (· == '"')).length⟩

/-- The forms that are read in the same way inside a hole: no raw strings, and of the marks only none, `@`, any number
of `$`, and those that end with `$@`. -/
structure IsKnownInHole (form : StringForm) : Prop where
  raw : form.raw = false
  sigils : form.sigils ∈ [[], ['@']] ∨ (∀ c ∈ form.sigils, c = '$') ∨ ['$', '@'] <:+ form.sigils

end StringForm

theorem Opened.string_of_marks {sigils : List Char} (h : sigils ≠ [] ∧ sigils ≠ ['@']) :
    string sigils = interpolatedString (sigils.contains '@') := by
  unfold string
  split
  · exact absurd rfl h.1
  · exact absurd rfl h.2
  · rfl

/-- Marks `$` alone never make a string verbatim. -/
theorem Opened.string_of_dollars {sigils : List Char} (h : ∀ c ∈ sigils, c = '$') (hne : sigils ≠ []) :
    stringInHole sigils = interpolatedString false ∧ string sigils = interpolatedString false := by
  induction sigils with
  | nil => exact absurd rfl hne
  | cons c sigils ih =>
    obtain ⟨rfl, hsigils⟩ := List.forall_mem_cons.mp h
    cases sigils with
    | nil => exact ⟨rfl, rfl⟩
    | cons d sigils =>
      obtain ⟨rfl, hrest⟩ := List.forall_mem_cons.mp hsigils
      have hnoAt : '@' ∉ '$' :: '$' :: sigils := fun hat => absurd (h '@' hat) (by decide)
      refine ⟨(ih hsigils (by simp)).1, ?_⟩
      rw [string_of_marks (by simp)]
      simpa using hnoAt

theorem StringForm.stringInHole_eq {form : StringForm} (h : form.IsKnownInHole) :
    Opened.stringInHole form.sigils = .string form.sigils := by
  obtain ⟨-, hplain | hdollars | ⟨front, hends⟩⟩ := h
  · simp only [List.mem_cons, List.not_mem_nil, or_false] at hplain
    rcases hplain with hplain | hplain <;> rw [hplain] <;> rfl
  · by_cases hnone : form.sigils = []
    · rw [hnone]
      rfl
    · obtain ⟨hhole, hstring⟩ := Opened.string_of_dollars hdollars hnone
      rw [hhole, hstring]
  · have hstring : Opened.string (front ++ ['$', '@']) = .interpolatedString true := by
      rw [Opened.string_of_marks (by cases front <;> simp)]
      simp
    rw [← hends, Opened.stringInHole_append, hstring]
    rfl

theorem opensString_of_isLiteral {text : String} {sigils ahead : List Char} (h : IsLiteral text)
    (hsigils : ∀ c ∈ sigils, isSigil c) (htext : text.toList = sigils ++ '"' :: ahead) : OpensString sigils := by
  rcases sigils with _ | ⟨c, sigils⟩
  · exact .inl rfl
  rcases isSigil_iff.mp (hsigils c (by simp)) with rfl | rfl
  · exact .inr (.inr ⟨hsigils, .inl (by simp)⟩)
  rcases sigils with _ | ⟨d, sigils⟩
  · exact .inr (.inl rfl)
  rcases isSigil_iff.mp (hsigils d (by simp)) with rfl | rfl
  · exact .inr (.inr ⟨hsigils, .inr (by simp)⟩)
  · -- A mark `@` in front of another one is an error.
    have hkind : (Lexeme.ofText true '@' ('@' :: sigils ++ '"' :: ahead)).kind = .error (.unexpectedCharacter '@') :=
      rfl
    obtain ⟨hliteral, -⟩ := (isLiteral_iff htext).mp h
    cases hkind.symm.trans hliteral

theorem nests_iff_closes {text : String} {sigils ahead : List Char} (hsigils : ∀ c ∈ sigils, isSigil c)
    (htext : text.toList = sigils ++ '"' :: ahead) :
    Nests text ↔
      Opened.Closes [.stringInHole sigils, .brace, .interpolatedString false] (ahead ++ ['\x7d', '"']) := by
  have hnested : ("$\"\x7b" ++ text ++ "\x7d\"").toList =
      ['$'] ++ '"' :: ('\x7b' :: (sigils ++ '"' :: (ahead ++ ['\x7d', '"']))) := by
    simp [htext]
  have hopens : OpensString ['$'] := .inr (.inr ⟨by simp [isSigil], .inl (List.prefix_refl _)⟩)
  have hhole : (Opened.interpolatedString false).step '\x7b' (sigils ++ '"' :: (ahead ++ ['\x7d', '"'])) =
      .ok [.brace, .interpolatedString false] := by
    cases sigils with
    | nil => rfl
    | cons c sigils => rcases isSigil_iff.mp (hsigils c (by simp)) with rfl | rfl <;> rfl
  rw [Nests, isLiteral_iff_of_one_quote hopens (.inr (by simp)) hnested]
  exact (Opened.closes_cons_iff hhole []).trans (Opened.closes_hole hsigils _ _)

theorem IsStringLiteral.exists_sigils {text : String} (h : IsStringLiteral text) :
    ∃ ahead, text.toList = (StringForm.of text.toList).sigils ++ '"' :: ahead ∧
      OpensString (StringForm.of text.toList).sigils := by
  have hsplit := List.takeWhile_append_dropWhile (p := isSigil) (l := text.toList)
  have hquoted := h.quoted
  cases hbody : text.toList.dropWhile isSigil with
  | nil => rw [hbody] at hquoted; cases hquoted
  | cons c ahead =>
    rw [hbody] at hsplit hquoted
    cases hquoted
    exact ⟨ahead, hsplit.symm, opensString_of_isLiteral h.isLiteral (fun c hc => List.mem_takeWhile_imp hc) hsplit.symm⟩

theorem StringForm.of_sigils {sigils : List Char} (h : ∀ c ∈ sigils, isSigil c) (ahead : List Char) :
    of (sigils ++ '"' :: ahead) =
      ⟨sigils, sigils != ['@'] && 3 ≤ (('"' :: ahead).takeWhile (· == '"')).length⟩ := by
  rw [of, takeWhile_sigils h, dropWhile_sigils h]

/-- A literal of a form that a hole knows is one literal with the string around it. -/
theorem nests_of_isKnownInHole {text : String} (h : IsStringLiteral text)
    (hknown : (StringForm.of text.toList).IsKnownInHole) : Nests text := by
  obtain ⟨ahead, htext, hopens⟩ := h.exists_sigils
  have hhole := StringForm.stringInHole_eq hknown
  have hraw := hknown.raw
  generalize hsigils : (StringForm.of text.toList).sigils = sigils at *
  rw [htext, StringForm.of_sigils hopens.isSigil] at hraw
  have hquotes : sigils = ['@'] ∨ ¬ 3 ≤ (('"' :: ahead).takeWhile (· == '"')).length := by
    by_cases hat : sigils = ['@']
    · exact .inl hat
    · exact .inr (by simpa [hat] using hraw)
  have hcloses := (isLiteral_iff_of_one_quote hopens hquotes htext).mp h.isLiteral
  rw [nests_iff_closes hopens.isSigil htext, hhole]
  exact (Opened.closes_append_iff hcloses (by simp)).mpr rfl

/-! ### Literals that are read otherwise inside a hole -/

section

variable {sigils : List Char} (hopens : OpensString sigils)

include hopens

/-- A literal is misread if the string that its marks open inside a hole does not end where the literal does. -/
theorem exists_not_nests {raw : Bool} (body : List Char)
    (hform : (sigils != ['@'] && 3 ≤ (('"' :: body).takeWhile (· == '"')).length) = raw)
    (hliteral : IsLiteral (String.ofList (sigils ++ '"' :: body)))
    (hhole : ¬ Opened.Closes [.stringInHole sigils, .brace, .interpolatedString false] (body ++ ['\x7d', '"'])) :
    ∃ text, IsStringLiteral text ∧ StringForm.of text.toList = ⟨sigils, raw⟩ ∧ ¬ Nests text := by
  have htext : (String.ofList (sigils ++ '"' :: body)).toList = sigils ++ '"' :: body := String.toList_ofList
  refine ⟨_, ⟨hliteral, ?_⟩, ?_, ?_⟩
  · rw [htext, dropWhile_sigils hopens.isSigil]
    rfl
  · rw [htext, StringForm.of_sigils hopens.isSigil, hform]
  · rw [nests_iff_closes hopens.isSigil htext]
    exact hhole

/-- Inside a hole each of the quotes of a raw string opens or closes a string. -/
theorem exists_raw_not_nests (hat : sigils ≠ ['@']) :
    ∃ text, IsStringLiteral text ∧ StringForm.of text.toList = ⟨sigils, true⟩ ∧ ¬ Nests text := by
  refine exists_not_nests hopens "\"\"a\"b\"\"\"".toList ?_ ?_ ?_
  · simp [hat]
  · have hquotes : (String.ofList (sigils ++ '"' :: "\"\"a\"b\"\"\"".toList)).toList =
        sigils ++ (List.replicate 3 '"' ++ "a\"b\"\"\"".toList) := String.toList_ofList
    rw [isLiteral_iff_of_raw hopens hat (by decide) (by decide) hquotes]
    decide
  · have hcases := Opened.stringInHole_cases sigils
    simp only [List.mem_cons, List.not_mem_nil, or_false] at hcases
    rcases hcases with h | h | h | h <;> rw [h] <;> decide

/-- Outside a hole one mark `@` makes an interpolated string verbatim wherever it stands.  Inside, a string behind `$` is
not verbatim, and a string behind `@@` is not interpolated. -/
theorem exists_marks_not_nests (hmarks : ¬ StringForm.IsKnownInHole ⟨sigils, false⟩) :
    ∃ text, IsStringLiteral text ∧ StringForm.of text.toList = ⟨sigils, false⟩ ∧ ¬ Nests text := by
  have hplain : sigils ∉ [[], ['@']] := fun h => hmarks ⟨rfl, .inl h⟩
  have hends : ¬ ['$', '@'] <:+ sigils := fun h => hmarks ⟨rfl, .inr (.inr h)⟩
  simp only [List.mem_cons, List.not_mem_nil, or_false, not_or] at hplain
  have hat : '@' ∈ sigils := by
    by_contra hnone
    refine hmarks ⟨rfl, .inr (.inl fun c hc => ?_)⟩
    rcases isSigil_iff.mp (hopens.isSigil c hc) with rfl | rfl
    · rfl
    · exact absurd hc hnone
  have hstring : Opened.string sigils = .interpolatedString true := by
    rw [Opened.string_of_marks hplain]
    simpa using hat
  have hliteral {body : List Char} (hquotes : ¬ 3 ≤ (('"' :: body).takeWhile (· == '"')).length)
      (hcloses : Opened.Closes [.interpolatedString true] body) :
      IsLiteral (String.ofList (sigils ++ '"' :: body)) := by
    rw [isLiteral_iff_of_one_quote hopens (.inr hquotes) String.toList_ofList, hstring]
    exact hcloses
  obtain ⟨front, x, y, rfl⟩ : ∃ front x y, sigils = front ++ [x, y] := by
    rcases List.eq_nil_or_concat sigils with rfl | ⟨before, y, rfl⟩
    · exact absurd rfl hplain.1
    · rcases List.eq_nil_or_concat before with rfl | ⟨front, x, rfl⟩
      · obtain rfl : '@' = y := by simpa using hat
        exact absurd rfl hplain.2
      · exact ⟨front, x, y, by simp⟩
  have hx := isSigil_iff.mp (hopens.isSigil x (by simp))
  have hy := isSigil_iff.mp (hopens.isSigil y (by simp))
  rcases hy with rfl | rfl
  · -- A backslash takes the closing quote with it.
    have hhole : Opened.stringInHole (front ++ [x, '$']) = .interpolatedString false := by
      rw [Opened.stringInHole_append]
      rcases hx with rfl | rfl <;> rfl
    refine exists_not_nests hopens ['\\', '"'] (by simp) (hliteral (by decide) (by decide)) ?_
    rw [hhole]
    decide
  · rcases hx with rfl | rfl
    · exact absurd ⟨front, rfl⟩ hends
    · -- A brace does not open a hole, so that the quote in it closes the string.
      refine exists_not_nests hopens ['\x7b', '"', '\x7d', '"', '\x7d', '"'] (by simp)
        (hliteral (by decide) (by decide)) ?_
      rw [Opened.stringInHole_append]
      decide

end

/-- Which literals can stand in a hole: all literals that begin in the same way nest if and only if a hole knows their
form. -/
theorem nests_iff_isKnownInHole {literal : String} (h : IsStringLiteral literal) :
    (∀ text, IsStringLiteral text → StringForm.of text.toList = StringForm.of literal.toList → Nests text) ↔
      (StringForm.of literal.toList).IsKnownInHole := by
  obtain ⟨ahead, htext, hopens⟩ := h.exists_sigils
  constructor
  · intro hnests
    by_contra hunknown
    have hform := StringForm.of_sigils hopens.isSigil ahead
    rw [← htext] at hform
    generalize StringForm.of literal.toList = form at *
    obtain ⟨sigils, raw⟩ := form
    have hfails : ∃ text, IsStringLiteral text ∧ StringForm.of text.toList = ⟨sigils, raw⟩ ∧ ¬ Nests text := by
      cases raw with
      | false => exact exists_marks_not_nests hopens hunknown
      | true =>
        have hat : sigils ≠ ['@'] := by
          rintro rfl
          cases congrArg StringForm.raw hform
        exact exists_raw_not_nests hopens hat
    obtain ⟨text, htext, hsame, hfails⟩ := hfails
    exact hfails (hnests text htext hsame)
  · intro hknown text htext hsame
    exact nests_of_isKnownInHole htext (hsame ▸ hknown)

/-- An interpolated verbatim string with a backslash, doubled quotes and braces, and a string in a hole of its own. -/
theorem nests_verbatim_in_hole :
    let literal := "$@\"\\\"\"\x7b\x7b\x7b@\"b\"\"\"\x7d\""
    IsStringLiteral literal ∧ Nests literal := by
  intro literal
  have h : IsStringLiteral literal := ⟨by decide +kernel, by decide⟩
  have hform : StringForm.of literal.toList = ⟨['$', '@'], false⟩ := by decide
  have hknown : (StringForm.of literal.toList).IsKnownInHole := by
    rw [hform]
    exact ⟨rfl, .inr (.inr (List.suffix_refl _))⟩
  exact ⟨h, (nests_iff_isKnownInHole h).mpr hknown literal h rfl⟩

/-- A verbatim string whose marks stand the other way round, and a raw string. -/
theorem not_nests_other_forms :
    (IsStringLiteral "@$\"\\\"" ∧ ¬ Nests "@$\"\\\"") ∧
      IsStringLiteral "\"\"\"a\"b\"\"\"" ∧ ¬ Nests "\"\"\"a\"b\"\"\"" :=
  ⟨⟨⟨by decide +kernel, by decide⟩, by decide +kernel⟩, ⟨by decide +kernel, by decide⟩, by decide +kernel⟩

end CSharpStyle
