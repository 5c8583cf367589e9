import CSharpStyle.Grammar.CompilationUnit
import CSharpStyle.Proofs.Correspondence.Member

/-!
# Corresponding files

The readers of namespaces lead, and so does the reading of a file. In a body without a brace to close, reading ends
behind the last token.

* `Correspondence.namespaceBody`: from corresponding readings, the readings behind a namespace or a file correspond.
-/

namespace CSharpStyle

namespace Cursor

theorem size_skipKeyword_le (c : Cursor) (word : String) : (c.skipKeyword word).size ≤ c.size := by
  rw [skipKeyword, eatKeyword?]
  split
  · exact size_next_le c
  · exact Nat.le_refl _

theorem size_of_eatKeyword? {c d : Cursor} {word : String} (h : c.eatKeyword? word = some d) : d.size < c.size := by
  obtain ⟨hsees, heq⟩ := Option.ite_none_right_eq_some.mp h
  cases heq
  obtain ⟨a, ha, -⟩ := (Option.any_eq_true _ _).mp hsees
  exact size_next_lt (ahead_ne_nil_of_peek? ha)

/-- A using directive has a keyword. -/
theorem size_lt_of_seesUsingDirective {c : Cursor} (h : c.seesUsingDirective) :
    ((c.skipKeyword "global").skipKeyword "using").size < c.size := by
  refine Nat.lt_of_lt_of_le ?_ (size_skipKeyword_le c "global")
  simp only [seesUsingDirective] at h
  cases husing : (c.skipKeyword "global").eatKeyword? "using" with
  | none => rw [husing] at h; simp at h
  | some d =>
    rw [skipKeyword.eq_def _ "using", husing]
    exact size_of_eatKeyword? husing

theorem endsDirective_eq {xs ys : List Token} (h : List.Forall₂ Token.Alike xs ys) :
    endsDirective xs = endsDirective ys := by
  induction hn : xs.length using Nat.strongRecOn generalizing xs ys with
  | ind n ih =>
    cases h with
    | nil => rfl
    | cons htu hrest =>
      cases hrest with
      | nil => simp only [endsDirective, htu.isPunctuation]
      | cons hname hmore =>
        simp only [endsDirective, htu.isPunctuation, hname.isName]
        rw [ih _ (by simp at hn; omega) hmore rfl]

end Cursor

namespace Reading

/-- A keyword is skipped with the statement that it begins. -/
theorem skipExpression_of_keyword {statement : StatementReader} {scope : ScopeId} {stops : List String}
    {s : Reading} {t : Token} (ht : s.peek? = some t) (hkind : t.kind = .keyword) :
    skipExpression statement scope stops s = skipExpression statement scope stops s.next := by
  refine rounds_of_again ?_ (Cursor.size_next_lt (Cursor.ahead_ne_nil_of_peek? ht))
  have hmark (mark : String) : t.isPunctuation mark = false :=
    Token.not_isPunctuation_of_kind (by rw [hkind]; decide) mark
  simp [expressionRound, ht, hmark, Token.isOpener, Token.isCloser, hkind]

end Reading

/-- The bodies differ at most in related scopes and places. -/
structure NamespaceBody.Alike (positions : Position → Position → Prop) (scopes : ScopeId → ScopeId → Prop)
    (a b : NamespaceBody) : Prop where
  scope : scopes a.scope b.scope
  insideNamespace : a.insideNamespace = b.insideNamespace
  opening : Option.Rel positions a.opening b.opening

theorem NamespaceBody.Alike.mono {positions : Position → Position → Prop} {scopes scopes' : ScopeId → ScopeId → Prop}
    {a b : NamespaceBody} (h : a.Alike positions scopes b) (hmono : ∀ {i j : ScopeId}, scopes i j → scopes' i j) :
    a.Alike positions scopes' b :=
  ⟨hmono h.scope, h.insideNamespace, h.opening⟩

namespace Correspondence

open Cursor

variable {C : Correspondence} {n : Nat} {F G : NamespaceReader} {s t : Reading} {i j : ScopeId}
  {body body' : NamespaceBody}

/-- The readers of namespaces lead wherever fewer than `n` tokens are ahead, and consume all tokens if there is no
brace to close. -/
def Namespaces (C : Correspondence) (n : Nat) (F G : NamespaceReader) : Prop :=
  ∀ {s t : Reading} {a b : NamespaceBody}, C.Related s t →
    a.Alike C.positions (C.scopes s.outline t.outline) b → s.size < n →
      C.Leads s t (F a s) (G b t) ∧ (a.opening = none → (F a s).cursor.ahead = [])

theorem joinedText_takeWhile {xs ys : List Token} (h : List.Forall₂ C.tokens xs ys) {p : Token → Bool}
    (hp : ∀ {t u : Token}, t.Alike u → p t = p u) :
    joinedText (xs.takeWhile p) = joinedText (ys.takeWhile p) := by
  rw [joinedText, joinedText]
  congr 1
  induction h with
  | nil => rfl
  | cons htu _ ih =>
    have halike := C.alike htu
    rw [List.takeWhile_cons, List.takeWhile_cons, ← hp halike]
    split
    · rw [List.map_cons, List.map_cons, halike.text, ih]
    · rfl

namespace Related

theorem takeText (h : C.Related s t) {p : Token → Bool} (hp : ∀ {t u : Token}, t.Alike u → p t = p u) :
    (s.takeText p).1 = (t.takeText p).1 ∧ C.Leads s t (s.takeText p).2 (t.takeText p).2 :=
  ⟨joinedText_takeWhile (C.ahead h.cursor) hp, h.skipWhile hp⟩

theorem aliasName (h : C.Related s t) :
    s.aliasName.1 = t.aliasName.1 ∧ C.Leads s t s.aliasName.2 t.aliasName.2 := by
  rw [Reading.aliasName, Reading.aliasName]
  rcases h.name_cases with ⟨hs, ht⟩ | ⟨a, b, s', t', hs, ht, hab, hname⟩
  · rw [hs, ht]; exact ⟨rfl, .refl h⟩
  · simp only [hs, ht]
    rcases hname.leads.related.eat_cases "=" with ⟨hs, ht⟩ | ⟨s'', t'', hs, ht, hsign⟩
    · rw [hs, ht]; exact ⟨rfl, .refl h⟩
    · rw [hs, ht]; exact ⟨by rw [(C.alike hab).identifierName], hname.leads.trans hsign.leads⟩

theorem skipKeyword (h : C.Related s t) (word : String) :
    C.Leads s t (s.move (·.skipKeyword word)) (t.move (·.skipKeyword word)) :=
  h.move ((C.lockstep s.size).skipKeyword h.within word)

theorem seesUsingDirective (h : C.Related s t) : s.cursor.seesUsingDirective = t.cursor.seesUsingDirective := by
  have hglobal := (C.lockstep s.size).skipKeyword h.within "global"
  rw [Cursor.seesUsingDirective, Cursor.seesUsingDirective]
  rcases rel_cases ((C.lockstep s.size).eatKeyword? hglobal "using") with ⟨hs, ht⟩ | ⟨c, d, hs, ht, hcd⟩
  · simp only [hs, ht]
  · simp only [hs, ht]
    have hahead := C.ahead hcd.1
    generalize c.ahead = xs, d.ahead = ys at hahead
    cases hahead with
    | nil => rfl
    | cons htu hrest =>
      simp only [(C.alike htu).isKeyword, (C.alike htu).isName,
        endsDirective_eq (hrest.imp fun _ _ => C.alike)]

theorem addUsing (h : C.Related s t) {p q : Position} (hpq : C.positions p q) (target : String)
    (aliasName : Option String) (isStatic isGlobal insideNamespace : Bool) (namespaceName : Option String) :
    C.Leads s t
      { s with outline := s.outline.addUsing
                 ⟨target, aliasName, isStatic, isGlobal, p, insideNamespace, namespaceName⟩ }
      { t with outline := t.outline.addUsing
                 ⟨target, aliasName, isStatic, isGlobal, q, insideNamespace, namespaceName⟩ } := by
  obtain ⟨houtline, hmono⟩ := C.addUsing h.outline
    (u := ⟨target, aliasName, isStatic, isGlobal, p, insideNamespace, namespaceName⟩)
    (v := ⟨target, aliasName, isStatic, isGlobal, q, insideNamespace, namespaceName⟩) ⟨hpq, rfl⟩
  exact ⟨⟨h.cursor, houtline, h.errors, h.stalled⟩, Nat.le_refl _, hmono⟩

end Related

theorem usingDirective (h : C.Related s t)
    (hbody : body.Alike C.positions (C.scopes s.outline t.outline) body') (hsees : s.cursor.seesUsingDirective) :
    C.Advances s t (Reading.usingDirective body s) (Reading.usingDirective body' t) := by
  have hglobal := h.skipKeyword "global"
  have hkeywords : C.Advances s t (s.move fun c => (c.skipKeyword "global").skipKeyword "using")
      (t.move fun c => (c.skipKeyword "global").skipKeyword "using") :=
    ⟨hglobal.trans (hglobal.related.skipKeyword "using"), size_lt_of_seesUsingDirective hsees⟩
  have hstatic := hkeywords.trans (hkeywords.leads.related.skipKeyword "static")
  obtain ⟨halias, hname⟩ := hstatic.leads.related.aliasName
  have hname := hstatic.trans hname
  obtain ⟨htarget, htext⟩ := hname.leads.related.takeText
    (p := fun t => !(t.isPunctuation ";" || t.isPunctuation "\x7d"))
    fun hab => by rw [hab.isPunctuation, hab.isPunctuation]
  have htext := hname.trans htext
  have hend := htext.trans (htext.leads.related.require ";" (.expected "';' after using directive"))
  simp only [Reading.usingDirective, ← C.scopeName h.outline hbody.scope, ← h.seesKeyword,
    ← hkeywords.leads.related.seesKeyword, ← halias, ← htarget, ← hbody.insideNamespace]
  exact hend.trans (hend.leads.related.addUsing (C.position h.cursor) _ _ _ _ _ _)

theorem namespaceDeclaration (hread : C.Namespaces n F G) (h : C.Related s t) (hne : s.cursor.ahead ≠ [])
    (hbody : body.Alike C.positions (C.scopes s.outline t.outline) body') (hn : s.size ≤ n) :
    Round.Rel (C.Advances s t)
      (fun s' t' => C.Leads s t s' t' ∧ (body.opening = none → s'.cursor.ahead = []))
      (Reading.namespaceDeclaration F body s) (Reading.namespaceDeclaration G body' t) := by
  have hnext := h.next hne
  obtain ⟨hname, htext⟩ := hnext.leads.related.takeText
    (p := fun t => t.isName || t.isPunctuation "." || t.isPunctuation "::")
    fun hab => by rw [hab.isName, hab.isPunctuation, hab.isPunctuation]
  have htext := hnext.trans htext
  simp only [Reading.namespaceDeclaration, ← hname]
  split
  · exact .again (htext.trans (Leads.refl htext.leads.related |>.report_recover _))
  · obtain ⟨hopen, hscope⟩ := htext.leads.related.openScope (htext.leads.scopes hbody.scope) .namespaceBody
      (some (s.next.takeText fun t => t.isName || t.isPunctuation "." || t.isPunctuation "::").1) (by decide)
    have hopen := htext.trans hopen
    rcases hopen.leads.related.eat_cases ";" with ⟨hs, ht⟩ | ⟨s', t', hs, ht, hsemi⟩
    · simp only [hs, ht]
      rcases hopen.leads.related.eat_cases "\x7b" with ⟨hs, ht⟩ | ⟨s', t', hs, ht, hbrace⟩
      · rw [hs, ht]
        exact .again (hopen.trans (Leads.refl hopen.leads.related |>.report_recover _))
      · have hinner := hopen.trans hbrace.leads
        rw [hs, ht]
        refine .again (hinner.trans (hread (a := ⟨_, true, some _⟩) (b := ⟨_, true, some _⟩) hinner.leads.related
          ⟨hbrace.leads.scopes hscope, rfl, ?_⟩ (Nat.lt_of_lt_of_le hinner.size_lt hn)).1)
        exact .some (C.position hopen.leads.related.cursor)
    · have hinner := hopen.trans hsemi.leads
      obtain ⟨hleads, hall⟩ := hread (a := ⟨_, true, body.opening⟩) (b := ⟨_, true, body'.opening⟩)
        hinner.leads.related ⟨hsemi.leads.scopes hscope, rfl, hbody.opening⟩ (Nat.lt_of_lt_of_le hinner.size_lt hn)
      simp only [hs, ht]
      exact .done ⟨hinner.leads.trans hleads, hall⟩

theorem typeOrStatement (h : C.Related s t) (hij : C.scopes s.outline t.outline i j) :
    C.Leads s t (Reading.typeOrStatement i s) (Reading.typeOrStatement j t) := by
  obtain ⟨hheader, hbehind⟩ := h.header
  have htype : s.header.2.cursor.seesTypeDeclaration = t.header.2.cursor.seesTypeDeclaration :=
    (C.lockstep _).seesTypeDeclaration hbehind.related.within
  simp only [Reading.typeOrStatement, ← hheader, ← htype]
  split
  · exact hbehind.trans (typeDeclaration hbehind.related (hbehind.scopes hij) _)
  · split
    · exact hbehind
    · exact statement h hij

theorem namespaceRound (hread : C.Namespaces n F G) (h : C.Related s t)
    (hbody : body.Alike C.positions (C.scopes s.outline t.outline) body') (hn : s.size ≤ n) :
    Round.Rel (C.Advances s t)
      (fun s' t' => C.Leads s t s' t' ∧ (body.opening = none → s'.cursor.ahead = []))
      (Reading.namespaceRound F body s) (Reading.namespaceRound G body' t) := by
  rw [Reading.namespaceRound, Reading.namespaceRound]
  rcases h.peek_cases with ⟨hs, ht⟩ | ⟨a, b, hs, ht, hab⟩
  · rw [hs, ht]
    have hnil : s.cursor.ahead = [] := List.head?_eq_none_iff.mp hs
    rcases rel_cases hbody.opening with ⟨ho, ho'⟩ | ⟨p, q, ho, ho', hpq⟩
    · rw [ho, ho']; exact .done ⟨.refl h, fun _ => hnil⟩
    · rw [ho, ho']; exact .done ⟨h.reportAt hpq _, fun _ => hnil⟩
  · have hne := ahead_ne_nil_of_peek? hs
    have hopening : body.opening.isSome = body'.opening.isSome := by
      rcases rel_cases hbody.opening with ⟨ho, ho'⟩ | ⟨p, q, ho, ho', -⟩
      · rw [ho, ho']
      · rw [ho, ho']; rfl
    have halias : s.cursor.second?.any (·.text == "alias") = t.cursor.second?.any (·.text == "alias") :=
      h.second_any fun hab => by rw [hab.text]
    simp only [hs, ht, ← (C.alike hab).isPunctuation, ← (C.alike hab).isKeyword, ← hopening, ← halias,
      ← h.seesUsingDirective]
    split
    · split
      · rename_i hsome
        refine .done ⟨(h.next hne).leads, fun hnone => ?_⟩
        rw [hnone] at hsome
        cases hsome
      · have hreport := h.report .unmatchedBrace
        exact .again (hreport.advances (hreport.related.next hne))
    · split
      · exact .again (usingDirective h hbody ‹_›)
      · split
        · exact namespaceDeclaration hread h hne hbody hn
        · split
          · rename_i hextern
            have hkind : a.kind = .keyword := by
              have hword := (Bool.and_eq_true_iff.mp hextern).1
              simp only [Token.isKeyword, Bool.and_eq_true, beq_iff_eq] at hword
              exact hword.1
            have hnext := h.next hne
            have hend := hnext.trans (statementEnd hnext.leads.related (hnext.leads.scopes hbody.scope))
            rw [Reading.statementEnd, Reading.statementEnd, Reading.skipToStatementEnd, Reading.skipToStatementEnd,
              Reading.skipExpression_of_keyword hs hkind,
              Reading.skipExpression_of_keyword ht ((C.alike hab).kind ▸ hkind)]
            exact .again hend
          · exact .again (h.progress hne (typeOrStatement h hbody.scope))

/-- The reader of namespaces leads, by induction on the tokens ahead. A body without a brace to close extends to
the end of the file. -/
theorem namespaceBody (h : C.Related s t) (hbody : body.Alike C.positions (C.scopes s.outline t.outline) body') :
    C.Leads s t (body.read s) (body'.read t) ∧ (body.opening = none → (body.read s).cursor.ahead = []) := by
  induction hn : s.size using Nat.strongRecOn generalizing s t body body' with
  | ind n ih =>
    rw [NamespaceBody.read, NamespaceBody.read]
    refine rounds_result (Q := fun s' t' => C.Leads s t s' t' ∧ (body.opening = none → s'.cursor.ahead = [])) h
      fun {s' t'} h' => ?_
    refine (namespaceRound (n := n) (fun {s'' t'' inner inner'} h'' hinner hsize => ?_) h'.related
      (hbody.mono h'.scopes) (hn ▸ h'.size_le)).imp id fun ⟨hdone, hall⟩ => ⟨h'.trans hdone, hall⟩
    rw [if_pos (hn ▸ hsize), if_pos (by rwa [← h''.size_eq, ← h.size_eq, hn])]
    exact ih s''.size hsize h'' hinner rfl

end Correspondence

end CSharpStyle
