import CSharpStyle.Proofs.Isolation.Reading
import Mathlib.Data.List.TakeWhile

/-!
# Signatures inside a member

Expressions, parameter lists and constraints end inside the member. The list of type parameters is the one part of a
signature that can go past the `;`: without a name it is skipped up to the next `>`, wherever that is.

* `Inside.typeParameters`: reading stays inside the member or is lost.
* `Inside.methodRest`: so does the reader of methods, or it ends behind the member.
-/

namespace CSharpStyle

namespace Reading

open Token

variable {rest : List Token} {s t : Reading}

namespace Inside

variable {f g : StatementReader} {i : ScopeId} {stops : List String}

theorem declareName (h : Inside rest s t) (scope : ScopeId) (a : Token) (role : Role) (kind : DeclarationKind)
    (accessibility : Accessibility) :
    Inside rest (s.declareName scope a role kind accessibility) (t.declareName scope a role kind accessibility) :=
  h.declare scope _

private theorem closing_ne {a : Token} (hopen : a.isOpener) (hbrace : a.isPunctuation "\x7b" = false) :
    closing a.text ≠ "\x7d" := by
  simp only [isOpener, Bool.and_eq_true, Bool.or_eq_true, beq_iff_eq] at hopen
  obtain ⟨hkind, (htext | htext) | htext⟩ := hopen
  · rw [htext]; decide
  · rw [htext]; decide
  · simp [isPunctuation, hkind, htext] at hbrace

/-- An expression stops at the `;`, since no brace is open. -/
theorem expressionRound (h : Inside rest s t) {pending : List String} (hpending : pending.contains "\x7d" = false) :
    Round.Rel (fun a b => (a.1 = b.1 ∧ a.1.contains "\x7d" = false ∧ Inside rest a.2 b.2) ∧ a.2.size < s.size ∧
        b.2.size < t.size) (Inside rest)
      (Reading.expressionRound f i stops (pending, s)) (Reading.expressionRound g i stops (pending, t)) := by
  simp only [Reading.expressionRound, ← h.peek_eq]
  rcases h.cursor.cases with ⟨hs, -⟩ | ⟨a, text, htext, hs, ht, hnext⟩
  · have hopen : (mark ";").isOpener = false := rfl
    have hclose : (mark ";").isCloser = false := rfl
    have hsemi : (mark ";").isPunctuation ";" = true := rfl
    simp only [show s.peek? = some (mark ";") from congrArg List.head? hs, show (mark ";").isPunctuation "\x7b" = false
      from rfl, hopen, hclose, hsemi, hpending, Bool.false_and, Bool.true_and, Bool.not_false, Bool.false_eq_true,
      ↓reduceIte]
    exact .done h
  · have hpeek : s.peek? = some a := congrArg List.head? hs
    have hsemi := htext.noSemicolon (List.mem_cons_self ..)
    obtain ⟨hbrace, -⟩ := htext.noBrace (List.mem_cons_self ..)
    have hgo {inner : List String} (hinner : inner.contains "\x7d" = false) :
        Round.Rel (fun a b => (a.1 = b.1 ∧ a.1.contains "\x7d" = false ∧ Inside rest a.2 b.2) ∧ a.2.size < s.size ∧
          b.2.size < t.size) (Inside rest) (.again (inner, s.next)) (.again (inner, t.next)) :=
      .again ⟨⟨rfl, hinner, h.move hnext⟩, Cursor.size_next_lt (by rw [hs]; exact List.cons_ne_nil _ _),
        Cursor.size_next_lt (by rw [ht]; exact List.cons_ne_nil _ _)⟩
    simp only [hpeek, hbrace, hsemi, Bool.false_and, Bool.false_eq_true, ↓reduceIte]
    split
    · rename_i hopen
      refine hgo ?_
      rw [List.contains_cons, hpending, beq_eq_false_iff_ne.mpr (closing_ne hopen hbrace).symm, Bool.or_false]
    · split
      · cases pending with
        | nil => exact .done h
        | cons closer outer =>
          refine hgo ?_
          rw [List.contains_cons, Bool.or_eq_false_iff] at hpending
          exact hpending.2
      · split
        · exact .done h
        · exact hgo hpending

theorem skipExpression (h : Inside rest s t) :
    Inside rest (Reading.skipExpression f i stops s) (Reading.skipExpression g i stops t) := by
  refine rounds_rel (R := fun a b => a.1 = b.1 ∧ a.1.contains "\x7d" = false ∧ Inside rest a.2 b.2) ?_ ⟨rfl, rfl, h⟩
  rintro ⟨pending, s⟩ ⟨-, t⟩ ⟨rfl, hpending, h⟩
  exact h.expressionRound hpending

theorem skipToStatementEnd (h : Inside rest s t) :
    Passage rest (Reading.skipToStatementEnd f i s) (Reading.skipToStatementEnd g i t) :=
  h.skipExpression.skip_semicolon

theorem skipValue (h : Inside rest s t) : Inside rest (Reading.skipValue f i s) (Reading.skipValue g i t) := by
  rw [Reading.skipValue, Reading.skipValue]
  rcases h.eat_cases "=" (by decide) with ⟨hs, ht⟩ | ⟨s', t', hs, ht, h'⟩
  · rw [hs, ht]; exact h
  · rw [hs, ht]; exact h'.skipExpression

/-! ### Searches that can go past the member -/

/-- A cursor that moves to the end in both files, unless something behind the member stops it, is lost. -/
theorem lost (h : Inside rest s t) {f : Cursor → Cursor} (ht : (f t.cursor).ahead = [])
    (hs : Unsought rest → (f s.cursor).ahead = []) : Lost rest (s.move f) (t.move f) where
  spent := ⟨ht, h.moving.2⟩
  alike hrest := ⟨⟨hs hrest, h.moving.1⟩, congrArg Outline.entries h.outline⟩

/-- A mark that is not found inside the member is not found in the second file. -/
private theorem forall_of_not_exists {text after : List Token} {mark : String}
    (h : ¬∃ a ∈ text, a.isPunctuation mark) (hsemi : mark ≠ ";")
    (hafter : ∀ a ∈ after, a.isPunctuation mark = false) :
    ∀ a ∈ text ++ Token.mark ";" :: after, a.isPunctuation mark = false := by
  intro a ha
  rcases List.mem_append.mp ha with ha | ha
  · exact Bool.eq_false_iff.mpr fun hmark => h ⟨a, ha, hmark⟩
  · rcases List.mem_cons.mp ha with rfl | ha
    · exact isPunctuation_of_ne (show (Token.mark ";").isPunctuation ";" from rfl) hsemi.symm
    · exact hafter a ha

theorem skipPast (h : Inside rest s t) :
    Inside rest (s.move (.skipPast ">")) (t.move (.skipPast ">")) ∨
      Lost rest (s.move (.skipPast ">")) (t.move (.skipPast ">")) := by
  obtain ⟨text, htext, hs, ht⟩ := h.cursor
  by_cases hmark : ∃ a ∈ text, a.isPunctuation ">"
  · obtain ⟨behind, hsuffix, hbehind⟩ := Cursor.skipPast_append hmark
    refine .inl (h.move (.of_suffix htext hsuffix ?_ ?_))
    · exact (congrArg (fun ahead => (Cursor.skipPast ">" ⟨s.cursor.before, ahead⟩).ahead) hs).trans (hbehind _ _)
    · exact (congrArg (fun ahead => (Cursor.skipPast ">" ⟨t.cursor.before, ahead⟩).ahead) ht).trans (hbehind _ _)
  · refine .inr (h.lost (Cursor.skipPast_of_forall ?_) fun hrest => Cursor.skipPast_of_forall ?_)
    · rw [ht]
      exact forall_of_not_exists hmark (by decide) (by decide)
    · rw [hs]
      exact forall_of_not_exists hmark (by decide) fun a ha => (hrest a ha).1

/-- The parenthesis of an operator is searched for. -/
theorem skipWhile (h : Inside rest s t) :
    Inside rest (s.move (.skipWhile (!·.isPunctuation "("))) (t.move (.skipWhile (!·.isPunctuation "("))) ∨
      Lost rest (s.move (.skipWhile (!·.isPunctuation "("))) (t.move (.skipWhile (!·.isPunctuation "("))) := by
  obtain ⟨text, htext, hs, ht⟩ := h.cursor
  by_cases hmark : ∃ a ∈ text, a.isPunctuation "("
  · obtain ⟨a, ha, hparen⟩ := hmark
    have hne : (text.dropWhile (!·.isPunctuation "(")).isEmpty = false := by
      refine Bool.eq_false_iff.mpr fun hempty => ?_
      have hall := List.dropWhile_eq_nil_iff.mp (List.isEmpty_iff.mp hempty) a ha
      rw [hparen] at hall
      cases hall
    refine .inl (h.move (.of_suffix htext (List.dropWhile_suffix (!·.isPunctuation "(")) ?_ ?_))
    · rw [Cursor.skipWhile, hs, List.dropWhile_append, hne, if_neg Bool.false_ne_true]
    · rw [Cursor.skipWhile, ht, List.dropWhile_append, hne, if_neg Bool.false_ne_true]
  · have hall {after : List Token} (hafter : ∀ a ∈ after, a.isPunctuation "(" = false) :
        (text ++ Token.mark ";" :: after).dropWhile (!·.isPunctuation "(") = [] := by
      refine List.dropWhile_eq_nil_iff.mpr fun a ha => ?_
      rw [forall_of_not_exists hmark (by decide) hafter a ha, Bool.not_false]
    refine .inr (h.lost ?_ fun hrest => ?_)
    · rw [Cursor.skipWhile, ht, hall (by decide)]
    · rw [Cursor.skipWhile, hs, hall fun a ha => (hrest a ha).2]

/-! ### Signatures -/

theorem typeParameterRound (h : Inside rest s t) :
    Round.Rel (Inside rest) (fun s' t' => Inside rest s' t' ∨ Lost rest s' t') (Reading.typeParameterRound i s)
      (Reading.typeParameterRound i t) := by
  have hmove : Inside rest (s.move (·.skipAttributes.skipEither "in" "out"))
      (t.move (·.skipAttributes.skipEither "in" "out")) :=
    h.move ((lockstep rest).skipEither ((lockstep rest).skipAttributes h.cursor) "in" "out")
  simp only [Reading.typeParameterRound]
  rcases hmove.name_cases with ⟨hs, ht⟩ | ⟨a, s', t', hs, ht, hname⟩
  · rw [hs, ht]
    exact .done (hmove.report (by decide)).skipPast
  · have hdeclare := hname.declareName i a .typeParameter .typeParameter .unspecified
    simp only [hs, ht]
    rcases hdeclare.eat_cases "," (by decide) with ⟨hs, ht⟩ | ⟨s'', t'', hs, ht, hcomma⟩
    · rw [hs, ht]
      exact .done (.inl (hdeclare.require ">" (by decide) (by decide)))
    · rw [hs, ht]
      exact .again hcomma

theorem typeParameters (h : Inside rest s t) :
    Inside rest (s.typeParameters i) (t.typeParameters i) ∨ Lost rest (s.typeParameters i) (t.typeParameters i) := by
  rw [Reading.typeParameters, Reading.typeParameters]
  rcases h.eat_cases "<" (by decide) with ⟨hs, ht⟩ | ⟨s', t', hs, ht, h'⟩
  · rw [hs, ht]; exact .inl h
  · rw [hs, ht]
    refine h'.rounds typeParameterRound fun {u v} hu hround => ?_
    exact (sound_of_again (((moving_of_not_stalled hu).related fun _ => id).typeParameterRound (i := i) rfl) hround).2

theorem skipUntil (h : Inside rest s t) {stop : Token → Bool}
    (hstop : ∀ {t u : Token}, t.Alike u → stop t = stop u)
    (hwall : ∀ {t : Token}, t.isWall → stop t) :
    Inside rest (s.move (.skipUntil stop)) (t.move (.skipUntil stop)) :=
  h.move ((lockstep rest).skipUntil h.cursor hstop hwall)

theorem skipConstraints (h : Inside rest s t) : Inside rest s.skipConstraints t.skipConstraints := by
  rw [Reading.skipConstraints, Reading.skipConstraints, ← h.seesKeyword]
  split
  · refine h.skipUntil (fun hab => by rw [hab.kind, hab.text]) fun {a} ha => ?_
    obtain ⟨hkind, htext⟩ := eq_of_isWall ha
    rcases htext with htext | htext | htext <;> simp [hkind, htext]
  · exact h

theorem skipConstructorCall (h : Inside rest s t) : Inside rest s.skipConstructorCall t.skipConstructorCall := by
  rw [Reading.skipConstructorCall, Reading.skipConstructorCall]
  rcases h.eat_cases ":" (by decide) with ⟨hs, ht⟩ | ⟨s', t', hs, ht, h'⟩
  · rw [hs, ht]; exact h
  · rcases h'.eatKeyword_cases "base" with ⟨hs', ht'⟩ | ⟨s'', t'', hs', ht', h''⟩
    · rcases h'.eatKeyword_cases "this" with ⟨hs'', ht''⟩ | ⟨s'', t'', hs'', ht'', h''⟩
      · simp only [hs, ht, hs', ht', hs'', ht'', Option.or_none]; exact h'
      · simp only [hs, ht, hs', ht', hs'', ht'', Option.none_or]; exact h''.skipGroupAt "(" (.inl rfl)
    · simp only [hs, ht, hs', ht', Option.some_or]; exact h''.skipGroupAt "(" (.inl rfl)

theorem abandonParameters (h : Inside rest s t) {closer : String} (hcloser : closer ≠ ";") {defect : Defect}
    (hdefect : defect.kind ≠ .unclosedScope) :
    Inside rest (Reading.abandonParameters f i closer (s.report defect))
      (Reading.abandonParameters g i closer (t.report defect)) :=
  (h.report hdefect).skipExpression.skip closer hcloser

theorem parameterRound (h : Inside rest s t) {list : ParameterList} (hcloser : list.closer ≠ ";") :
    Round.Rel (Inside rest) (Inside rest) (Reading.parameterRound f i list s) (Reading.parameterRound g i list t) := by
  have hattributes := (lockstep rest).skipAttributes h.cursor
  have hmove : Inside rest (s.move (·.skipAttributes.skipWhile isParameterModifier))
      (t.move (·.skipAttributes.skipWhile isParameterModifier)) := by
    refine h.move ((lockstep rest).skipWhile hattributes (fun hab => ?_) fun {c d a} hcd ha hmodifier => ?_)
    · rw [isParameterModifier, isParameterModifier, hab.kind, hab.text, hab.isIdentifier]
    · refine (lockstep rest).next hcd ha (not_isWall_of_kind fun hkind => ?_)
      simp [isParameterModifier, isIdentifier, hkind] at hmodifier
  simp only [Reading.parameterRound]
  rcases hmove.type_cases with ⟨hs, ht⟩ | ⟨isVar, s', t', hs, ht, htype⟩
  · rw [hs, ht]; exact .done (hmove.abandonParameters hcloser (by decide))
  · simp only [hs, ht]
    rcases htype.name_cases with ⟨hs, ht⟩ | ⟨a, s', t', hs, ht, hname⟩
    · rw [hs, ht]; exact .done (htype.abandonParameters hcloser (by decide))
    · have hvalue := (hname.declareName i a list.role list.kind list.accessibility).skipValue (f := f) (g := g) (i := i)
      simp only [hs, ht]
      rcases hvalue.eat_cases "," (by decide) with ⟨hs, ht⟩ | ⟨s'', t'', hs, ht, hcomma⟩
      · simp only [hs, ht]
        rcases hvalue.eat_cases list.closer hcloser with ⟨hs, ht⟩ | ⟨s'', t'', hs, ht, hend⟩
        · rw [hs, ht]
          refine .done (hvalue.abandonParameters hcloser fun hkind => ?_)
          cases hkind
        · rw [hs, ht]; exact .done hend
      · simp only [hs, ht]; exact .again hcomma

private theorem closing_ne_semicolon (opener : String) : closing opener ≠ ";" := by
  rw [closing]
  split
  · decide
  · split <;> decide

theorem parameterList (h : Inside rest s t) (hparen : s.sees "(" ∨ s.sees "[") (role : Role) (kind : DeclarationKind) :
    Inside rest (Reading.parameterList Statement.read i role kind s)
      (Reading.parameterList Statement.read i role kind t) := by
  have hmark : ∃ a, s.peek? = some a ∧ a.isPunctuation ";" = false := by
    rcases hparen with hsees | hsees
    all_goals
      obtain ⟨a, ha, hmark⟩ := Cursor.exists_of_sees hsees
      exact ⟨a, ha, isPunctuation_of_ne hmark (by decide)⟩
  obtain ⟨a, ha, hsemi⟩ := hmark
  have hnext := h.next ha hsemi
  simp only [Reading.parameterList, ← h.peek_eq, ha]
  rcases hnext.eat_cases (closing a.text) (closing_ne_semicolon _) with ⟨hs, ht⟩ | ⟨s', t', hs, ht, hend⟩
  · rw [hs, ht]
    refine hnext.rounds (fun h' => h'.parameterRound (closing_ne_semicolon _)) fun {u v} hu hround => ?_
    exact (sound_of_again (Correspondence.parameterRound (Correspondence.statements u.size)
      ((moving_of_not_stalled hu).related fun _ => id) (i := i) rfl (Nat.le_refl _) _) hround).2
  · rw [hs, ht]; exact hend

theorem methodBody (h : Inside rest s t) :
    Passage rest (Reading.methodBody f i s).settle (Reading.methodBody g i t).settle := by
  rw [Reading.methodBody, Reading.methodBody, ← h.sees, h.sees_brace.1, if_neg Bool.false_ne_true,
    if_neg Bool.false_ne_true]
  rcases h.eat_cases "=>" (by decide) with ⟨hs, ht⟩ | ⟨s', t', hs, ht, harrow⟩
  · rcases h.eat_semicolon with ⟨hs', ht'⟩ | ⟨s', t', hs', ht', hend⟩
    · simp only [hs, ht, hs', ht']; exact h.report_recover (by decide)
    · simp only [hs, ht, hs', ht']; exact .behind hend
  · simp only [hs, ht]; exact harrow.skipToStatementEnd

end Inside

/-! ### At the end of the file -/

namespace Spent

variable {i : ScopeId}

theorem typeParameters (h : s.Spent) : s.typeParameters i = s := by
  rw [Reading.typeParameters, h.eat?]

theorem skipConstraints (h : s.Spent) : s.skipConstraints = s := by
  rw [Reading.skipConstraints, h.seesKeyword, if_neg Bool.false_ne_true]

theorem skipUntil (h : s.Spent) (stop : Token → Bool) : s.move (.skipUntil stop) = s := by
  rw [move, Cursor.skipUntil, Cursor.skipMany_of_none]
  simp only [Cursor.strideUntil, show s.cursor.peek? = none from h.peek_eq]

/-- What comes behind the type parameters of a method is missing. -/
theorem settle (h : s.Spent) (a : Attempt) :
    (if s.sees "(" then a else .malformed (s.report (.expected "parameter list"))).settle =
      s.report (.expected "parameter list") := by
  rw [h.sees, if_neg Bool.false_ne_true]
  exact (h.report _).recover

end Spent

theorem Lost.methodRest {i : ScopeId} (h : Lost rest s t) (name : String) :
    Lost rest (Reading.methodRest Statement.read i name s).settle
      (Reading.methodRest Statement.read i name t).settle := by
  have hopen := h.openScope .method (some name) i
  refine hopen.report (.expected "parameter list") (fun hu => ?_) fun hu => ?_
  all_goals
    simp only [Reading.methodRest, hu.typeParameters]
    exact hu.settle _

theorem Inside.methodRest {i : ScopeId} (h : Inside rest s t) (name : String) :
    Passage rest (Reading.methodRest Statement.read i name s).settle
      (Reading.methodRest Statement.read i name t).settle := by
  obtain ⟨method, s', t', hs, ht, hopen⟩ := h.openScope .method (some name) i
  simp only [Reading.methodRest, hs, ht]
  rcases hopen.typeParameters (i := method) with htypes | hlost
  · rw [← htypes.sees]
    split
    · rename_i hparen
      exact (htypes.parameterList (.inl hparen) .parameter .parameter).skipConstructorCall.skipConstraints.methodBody
    · exact htypes.report_recover (by decide)
  · exact .lost (hlost.report _ (fun hu => hu.settle _) fun hu => hu.settle _)

end Reading

end CSharpStyle
