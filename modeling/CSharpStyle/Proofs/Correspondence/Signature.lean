import CSharpStyle.Proofs.Correspondence.Expression

/-!
# Corresponding signatures

Headers, type parameters, parameters and the methods that consist of them and a body lead.
-/

namespace CSharpStyle

/-- The members were both read to the end or both found malformed, with related readings behind. -/
inductive Attempt.Rel (R : Reading → Reading → Prop) : Attempt → Attempt → Prop
  | complete {s t : Reading} (h : R s t) : Rel R (.complete s) (.complete t)
  | malformed {s t : Reading} (h : R s t) : Rel R (.malformed s) (.malformed t)

theorem Attempt.Rel.imp {R S : Reading → Reading → Prop} {a b : Attempt} (h : Attempt.Rel R a b)
    (himp : ∀ {s t : Reading}, R s t → S s t) : Attempt.Rel S a b := by
  cases h with
  | complete h => exact .complete (himp h)
  | malformed h => exact .malformed (himp h)

namespace Cursor

theorem size_skipWhile_le (p : Token → Bool) (c : Cursor) : (c.skipWhile p).size ≤ c.size :=
  (List.dropWhile_suffix p).length_le

theorem size_skipPast_le (mark : String) (c : Cursor) : (c.skipPast mark).size ≤ c.size := by
  cases hc : c.ahead with
  | nil => simp [skipPast, skipWhile, size, hc]
  | cons t rest => exact Nat.le_of_lt (size_skipPast_lt (by simp [hc]))

end Cursor

namespace Correspondence

open Cursor

variable {C : Correspondence} {n : Nat} {f g : StatementReader} {s t : Reading} {i j : ScopeId}

theorem settle {a b : Attempt} (h : Attempt.Rel (C.Leads s t) a b) : C.Leads s t a.settle b.settle := by
  cases h with
  | complete h => exact h
  | malformed h => exact h.trans h.related.recover

theorem Leads.attempt {s' t' : Reading} {a b : Attempt} (h : C.Leads s t s' t')
    (hrest : Attempt.Rel (C.Leads s' t') a b) : Attempt.Rel (C.Leads s t) a b :=
  hrest.imp h.trans

namespace Related

theorem header (h : C.Related s t) :
    s.header.1 = t.header.1 ∧ C.Leads s t s.header.2 t.header.2 := by
  obtain ⟨heq, hmove⟩ := (C.lockstep s.size).read h.within
  exact ⟨heq, h.move hmove⟩

theorem skipPast (h : C.Related s t) (mark : String) :
    C.Leads s t (s.move (.skipPast mark)) (t.move (.skipPast mark)) :=
  h.move ⟨C.skipPast h.cursor mark, size_skipPast_le mark _⟩

theorem skipWhile (h : C.Related s t) {p : Token → Bool} (hp : ∀ {t u : Token}, t.Alike u → p t = p u) :
    C.Leads s t (s.move (.skipWhile p)) (t.move (.skipWhile p)) :=
  h.move ⟨C.skipWhile h.cursor hp, size_skipWhile_le p _⟩

theorem skipUntil (h : C.Related s t) {p : Token → Bool} (hp : ∀ {t u : Token}, t.Alike u → p t = p u)
    (hwall : ∀ {t : Token}, t.isWall → p t) :
    C.Leads s t (s.move (.skipUntil p)) (t.move (.skipUntil p)) :=
  h.move ((C.lockstep s.size).skipUntil h.within hp hwall)

theorem skipGroupAt (h : C.Related s t) (opener : String) (hopener : opener = "(" ∨ opener = "[") :
    C.Leads s t (s.skipGroupAt opener) (t.skipGroupAt opener) := by
  rw [Reading.skipGroupAt, Reading.skipGroupAt, ← h.sees]
  split
  · rename_i hsees
    obtain ⟨a, ha, hmark⟩ := exists_of_sees hsees
    obtain ⟨hkind, htext⟩ := Token.eq_of_isPunctuation hmark
    refine h.move ((C.lockstep s.size).skipGroup h.within ?_)
    rcases hopener with rfl | rfl <;> simp [ha, Token.isOpener, hkind, htext]
  · exact .refl h

theorem declareName (h : C.Related s t) (hij : C.scopes s.outline t.outline i j) {a b : Token}
    (hab : C.tokens a b) (role : Role) (kind : DeclarationKind) (accessibility : Accessibility) :
    C.Leads s t (s.declareName i a role kind accessibility) (t.declareName j b role kind accessibility) :=
  h.declare hij ⟨(C.alike hab).identifierName, rfl, rfl, rfl, rfl, C.start hab, .none⟩

theorem typeParameterRound (h : C.Related s t) (hij : C.scopes s.outline t.outline i j) :
    Round.Rel (C.Advances s t) (C.Leads s t) (Reading.typeParameterRound i s) (Reading.typeParameterRound j t) := by
  have hmove : C.Leads s t (s.move (·.skipAttributes.skipEither "in" "out"))
      (t.move (·.skipAttributes.skipEither "in" "out")) :=
    h.move ((C.lockstep s.size).skipEither ((C.lockstep s.size).skipAttributes h.within) "in" "out")
  simp only [Reading.typeParameterRound]
  rcases hmove.related.name_cases with ⟨hs, ht⟩ | ⟨a, b, s', t', hs, ht, hab, hname⟩
  · rw [hs, ht]
    have hreport := hmove.trans (hmove.related.report (.expectedName "type parameter name"))
    exact .done (hreport.trans (hreport.related.skipPast ">"))
  · simp only [hs, ht]
    have hname := hmove.advances hname
    have hdeclare := hname.trans (hname.leads.related.declareName (hname.leads.scopes hij) hab .typeParameter
      .typeParameter .unspecified)
    rcases hdeclare.leads.related.eat_cases "," with ⟨hs, ht⟩ | ⟨s', t', hs, ht, hcomma⟩
    · rw [hs, ht]
      exact .done (hdeclare.leads.trans (hdeclare.leads.related.require ">" _))
    · rw [hs, ht]
      exact .again (hdeclare.trans hcomma.leads)

theorem typeParameters (h : C.Related s t) (hij : C.scopes s.outline t.outline i j) :
    C.Leads s t (s.typeParameters i) (t.typeParameters j) := by
  rw [Reading.typeParameters, Reading.typeParameters]
  rcases h.eat_cases "<" with ⟨hs, ht⟩ | ⟨s', t', hs, ht, h'⟩
  · rw [hs, ht]; exact .refl h
  · rw [hs, ht]
    exact h'.leads.trans (rounds_leads h'.leads.related fun h'' =>
      h''.related.typeParameterRound (h''.scopes (h'.leads.scopes hij)))

theorem skipConstraints (h : C.Related s t) : C.Leads s t s.skipConstraints t.skipConstraints := by
  rw [Reading.skipConstraints, Reading.skipConstraints, ← h.seesKeyword]
  split
  · refine h.skipUntil (fun hab => by rw [hab.kind, hab.text]) fun {a} ha => ?_
    obtain ⟨hkind, htext⟩ := Token.eq_of_isWall ha
    rcases htext with htext | htext | htext <;> simp [hkind, htext]
  · exact .refl h

theorem skipConstructorCall (h : C.Related s t) : C.Leads s t s.skipConstructorCall t.skipConstructorCall := by
  rw [Reading.skipConstructorCall, Reading.skipConstructorCall]
  rcases h.eat_cases ":" with ⟨hs, ht⟩ | ⟨s', t', hs, ht, h'⟩
  · rw [hs, ht]; exact .refl h
  · have hcall {s'' t'' : Reading} (h'' : C.Advances s' t' s'' t'') :
        C.Leads s t (s''.skipGroupAt "(") (t''.skipGroupAt "(") := by
      have h'' := h'.leads.trans h''.leads
      exact h''.trans (h''.related.skipGroupAt "(" (.inl rfl))
    rcases h'.leads.related.eatKeyword_cases "base" with ⟨hs', ht'⟩ | ⟨s'', t'', hs', ht', h''⟩
    · rcases h'.leads.related.eatKeyword_cases "this" with ⟨hs'', ht''⟩ | ⟨s'', t'', hs'', ht'', h''⟩
      · simp only [hs, ht, hs', ht', hs'', ht'', Option.or_none]; exact h'.leads
      · simp only [hs, ht, hs', ht', hs'', ht'', Option.none_or]; exact hcall h''
    · simp only [hs, ht, hs', ht', Option.some_or]; exact hcall h''

end Related

theorem abandonParameters (hread : C.Statements n f g) (h : C.Related s t)
    (hij : C.scopes s.outline t.outline i j) (hn : s.size ≤ n) (closer : String) :
    C.Leads s t (Reading.abandonParameters f i closer s) (Reading.abandonParameters g j closer t) := by
  have hskip := skipExpression hread h hij hn []
  exact hskip.trans (hskip.related.skip closer)

/-- Behind a report the rest of a malformed list is skipped alike. -/
private theorem report_abandonParameters (hread : C.Statements n f g) {s' t' : Reading} (h : C.Leads s t s' t')
    (hij : C.scopes s.outline t.outline i j) (hn : s.size ≤ n) (defect : Defect) (closer : String) :
    C.Leads s t (Reading.abandonParameters f i closer (s'.report defect))
      (Reading.abandonParameters g j closer (t'.report defect)) := by
  have hreport := h.trans (h.related.report defect)
  exact hreport.trans
    (abandonParameters hread hreport.related (hreport.scopes hij) (Nat.le_trans hreport.size_le hn) closer)

theorem parameterRound (hread : C.Statements n f g) (h : C.Related s t) (hij : C.scopes s.outline t.outline i j)
    (hn : s.size ≤ n) (list : Reading.ParameterList) :
    Round.Rel (C.Advances s t) (C.Leads s t) (Reading.parameterRound f i list s)
      (Reading.parameterRound g j list t) := by
  have hmove : C.Leads s t (s.move (·.skipAttributes.skipWhile Reading.isParameterModifier))
      (t.move (·.skipAttributes.skipWhile Reading.isParameterModifier)) := by
    have hattributes := (C.lockstep s.size).skipAttributes h.within
    refine h.move ⟨C.skipWhile hattributes.1 fun hab => ?_, Nat.le_trans (size_skipWhile_le _ _) hattributes.2⟩
    rw [Reading.isParameterModifier, Reading.isParameterModifier, hab.kind, hab.text, hab.isIdentifier]
  simp only [Reading.parameterRound]
  rcases hmove.related.type_cases with ⟨hs, ht⟩ | ⟨isVar, s', t', hs, ht, htype⟩
  · rw [hs, ht]; exact .done (report_abandonParameters hread hmove hij hn _ _)
  · have htype := hmove.trans htype.leads
    simp only [hs, ht]
    rcases htype.related.name_cases with ⟨hs, ht⟩ | ⟨a, b, s', t', hs, ht, hab, hname⟩
    · rw [hs, ht]; exact .done (report_abandonParameters hread htype hij hn _ _)
    · have hname := htype.advances hname
      have hdeclare := hname.trans
        (hname.leads.related.declareName (hname.leads.scopes hij) hab list.role list.kind list.accessibility)
      simp only [hs, ht]
      have hvalue := hdeclare.trans (skipValue hread hdeclare.leads.related (hdeclare.leads.scopes hij)
        (Nat.le_trans hdeclare.leads.size_le hn))
      rcases hvalue.leads.related.eat_cases "," with ⟨hs, ht⟩ | ⟨s'', t'', hs, ht, hcomma⟩
      · simp only [hs, ht]
        rcases hvalue.leads.related.eat_cases list.closer with ⟨hs, ht⟩ | ⟨s'', t'', hs, ht, hcloser⟩
        · rw [hs, ht]; exact .done (report_abandonParameters hread hvalue.leads hij hn _ _)
        · rw [hs, ht]; exact .done (hvalue.leads.trans hcloser.leads)
      · simp only [hs, ht]; exact .again (hvalue.trans hcomma.leads)

theorem parameterList (hread : C.Statements n f g) (h : C.Related s t) (hij : C.scopes s.outline t.outline i j)
    (hn : s.size ≤ n) (role : Role) (kind : DeclarationKind) :
    C.Leads s t (Reading.parameterList f i role kind s) (Reading.parameterList g j role kind t) := by
  simp only [Reading.parameterList]
  rcases h.peek_cases with ⟨hs, ht⟩ | ⟨a, b, hs, ht, hab⟩
  · rw [hs, ht]; exact .refl h
  · have hnext := h.next (ahead_ne_nil_of_peek? hs)
    simp only [hs, ht, (C.alike hab).text]
    rcases hnext.leads.related.eat_cases (closing b.text) with ⟨hs, ht⟩ | ⟨s', t', hs, ht, hcloser⟩
    · rw [hs, ht]
      refine hnext.leads.trans (rounds_leads hnext.leads.related fun h' => ?_)
      have hbehind := hnext.leads.trans h'
      exact parameterRound hread h'.related (hbehind.scopes hij) (Nat.le_trans hbehind.size_le hn) _
    · rw [hs, ht]; exact hnext.leads.trans hcloser.leads

theorem methodBody (hread : C.Statements n f g) (h : C.Related s t) (hij : C.scopes s.outline t.outline i j)
    (hn : s.size ≤ n) :
    Attempt.Rel (C.Leads s t) (Reading.methodBody f i s) (Reading.methodBody g j t) := by
  rw [Reading.methodBody, Reading.methodBody, ← h.sees]
  split
  · rename_i hbrace
    exact .complete (block hread h hij hn (ahead_ne_nil_of_sees hbrace)).leads
  · rcases h.eat_cases "=>" with ⟨hs, ht⟩ | ⟨s', t', hs, ht, h'⟩
    · rcases h.eat_cases ";" with ⟨hs', ht'⟩ | ⟨s', t', hs', ht', h'⟩
      · simp only [hs, ht, hs', ht']; exact .malformed (h.report _)
      · simp only [hs, ht, hs', ht']; exact .complete h'.leads
    · simp only [hs, ht]
      exact .complete (h'.leads.trans (skipToStatementEnd hread h'.leads.related (h'.leads.scopes hij)
        (Nat.le_trans h'.leads.size_le hn)))

theorem methodRest (hread : C.Statements n f g) (h : C.Related s t) (hij : C.scopes s.outline t.outline i j)
    (hn : s.size ≤ n) (name : String) :
    Attempt.Rel (C.Leads s t) (Reading.methodRest f i name s) (Reading.methodRest g j name t) := by
  obtain ⟨hopen, hmethod⟩ := h.openScope hij .method (some name) (by decide)
  have htypes := hopen.trans (hopen.related.typeParameters hmethod)
  have hmethod := (hopen.related.typeParameters hmethod).scopes hmethod
  simp only [Reading.methodRest, ← htypes.related.sees]
  split
  · have hlist := parameterList hread htypes.related hmethod (Nat.le_trans htypes.size_le hn) .parameter .parameter
    have hcall := hlist.trans hlist.related.skipConstructorCall
    have hconstraints := hcall.trans hcall.related.skipConstraints
    exact (htypes.trans hconstraints).attempt (methodBody hread hconstraints.related (hconstraints.scopes hmethod)
      (Nat.le_trans (htypes.trans hconstraints).size_le hn))
  · exact .malformed (htypes.trans (htypes.related.report _))

end Correspondence

end CSharpStyle
