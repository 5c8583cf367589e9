import CSharpStyle.Proofs.Isolation.Cursor

/-!
# Text of type references

A type reference that fills a text is read up to the end of this text wherever a name follows it.

* `Cursor.extend`: a cursor with more tokens behind those ahead.
* `Token.TypeText`: the text of a type reference that begins with an identifier.
* `TypeText.type?_append`: the reader of types stops right behind such a text.
-/

namespace CSharpStyle

namespace Cursor

/-- The cursor in a file that goes on with `rest`. -/
def extend (c : Cursor) (rest : List Token) : Cursor := ⟨c.before, c.ahead ++ rest⟩

section

variable {c d : Cursor} {y : Token} {rest : List Token}

theorem extend_next (h : c.ahead ≠ []) : (c.extend rest).next = c.next.extend rest := by
  obtain ⟨before, _ | ⟨t, ahead⟩⟩ := c
  · exact absurd rfl h
  · rfl

theorem peek_extend (h : c.ahead ≠ []) : (c.extend rest).peek? = c.peek? := by
  obtain ⟨before, _ | ⟨t, ahead⟩⟩ := c
  · exact absurd rfl h
  · rfl

theorem sees_extend (h : c.ahead ≠ []) (mark : String) : (c.extend rest).sees mark = c.sees mark := by
  rw [sees, sees, peek_extend h]

/-- A cursor that runs on to a name does not see a mark there. -/
theorem sees_extend_nil (h : c.ahead = []) (hy : y.kind ≠ .punctuation) (mark : String) :
    (c.extend (y :: rest)).sees mark = false := by
  rw [sees, peek?, extend, h]
  exact Token.not_isPunctuation_of_kind hy mark

theorem sees_nil (h : c.ahead = []) (mark : String) : c.sees mark = false := by
  rw [sees, peek?, h]
  rfl

/-- A mark is seen in the extended file only if it was seen before. -/
theorem sees_extend_cons (hy : y.kind ≠ .punctuation) (mark : String) :
    (c.extend (y :: rest)).sees mark = c.sees mark := by
  by_cases h : c.ahead = []
  · rw [sees_extend_nil h hy, sees_nil h]
  · exact sees_extend h mark

theorem closeTypeArguments_append {depth : Nat} {before ahead : List Token}
    (h : closeTypeArguments depth before ahead = some d) :
    closeTypeArguments depth before (ahead ++ rest) = some (d.extend rest) := by
  fun_induction closeTypeArguments depth before ahead with
  | case1 | case6 => cases h
  | case2 depth before t ahead hopen ih =>
    rw [List.cons_append, closeTypeArguments, if_pos hopen]
    exact ih h
  | case3 depth before t ahead hopen hclose hlast =>
    cases h
    rw [List.cons_append, closeTypeArguments, if_neg hopen, if_pos hclose, if_pos hlast]
    rfl
  | case4 depth before t ahead hopen hclose hlast ih =>
    rw [List.cons_append, closeTypeArguments, if_neg hopen, if_pos hclose, if_neg hlast]
    exact ih h
  | case5 depth before t ahead hopen hclose htoken ih =>
    rw [List.cons_append, closeTypeArguments, if_neg hopen, if_neg hclose, if_pos htoken]
    exact ih h

/-- Type arguments are read alike, if none begin that are not closed. -/
theorem skipTypeArguments_extend (hy : y.kind ≠ .punctuation) (h : c.skipTypeArguments.sees "<" = false) :
    (c.extend (y :: rest)).skipTypeArguments = c.skipTypeArguments.extend (y :: rest) := by
  rw [skipTypeArguments, typeArguments?, eat?] at h
  rw [skipTypeArguments, skipTypeArguments, typeArguments?, typeArguments?, eat?, eat?, sees_extend_cons hy]
  cases hsees : c.sees "<" with
  | false => rfl
  | true =>
    rw [hsees] at h
    simp only [↓reduceIte, extend_next (ahead_ne_nil_of_sees hsees)] at h ⊢
    cases hclose : closeTypeArguments 1 c.next.before c.next.ahead with
    | none =>
      rw [hclose, Option.getD_none, hsees] at h
      cases h
    | some d =>
      rw [show (c.next.extend (y :: rest)).before = c.next.before from rfl,
        show (c.next.extend (y :: rest)).ahead = c.next.ahead ++ y :: rest from rfl, closeTypeArguments_append hclose]
      rfl

theorem skipPast_extend {mark : String} (h : ∃ t ∈ c.ahead, t.isPunctuation mark) :
    (c.extend rest).skipPast mark = (c.skipPast mark).extend rest := by
  obtain ⟨before, ahead⟩ := c
  induction ahead generalizing before with
  | nil =>
    obtain ⟨t, ht, -⟩ := h
    cases ht
  | cons t ahead ih =>
    rw [extend, List.cons_append, skipPast_cons, skipPast_cons]
    by_cases hmark : t.isPunctuation mark
    · rw [if_pos hmark, if_pos hmark]
      rfl
    · rw [if_neg hmark, if_neg hmark]
      refine ih _ ?_
      obtain ⟨u, hu, humark⟩ := h
      rcases List.mem_cons.mp hu with rfl | hu
      · exact absurd humark hmark
      · exact ⟨u, hu, humark⟩

theorem skipPast_suffix (mark : String) (c : Cursor) : (c.skipPast mark).ahead <:+ c.ahead := by
  rw [skipPast]
  have hdrop : (c.skipWhile (!·.isPunctuation mark)).ahead <:+ c.ahead := List.dropWhile_suffix _
  split
  · exact hdrop
  · exact (List.tail_suffix _).trans hdrop

/-- The bracket that ends a rank is in the text, since the brackets of the text are closed. -/
theorem typeSuffix_extend (rest : List Token) (hclosed : ∃ closers, Token.unmatched c.ahead = some closers)
    (h : c.typeSuffix? = some d) :
    (c.extend rest).typeSuffix? = some (d.extend rest) ∧ d.ahead <:+ c.ahead := by
  rw [typeSuffix?] at h
  by_cases hmark : c.sees "?" || c.sees "*"
  · rw [if_pos hmark] at h
    cases h
    have hne : c.ahead ≠ [] := by
      rcases Bool.or_eq_true_iff.mp hmark with hsees | hsees <;> exact ahead_ne_nil_of_sees hsees
    rw [typeSuffix?, sees_extend hne, sees_extend hne, if_pos hmark, extend_next hne]
    exact ⟨rfl, List.tail_suffix _⟩
  · rw [if_neg hmark] at h
    obtain ⟨hrank, heq⟩ := Option.ite_none_right_eq_some.mp h
    cases heq
    obtain ⟨hsees, hsecond⟩ := Bool.and_eq_true_iff.mp hrank
    have hne := ahead_ne_nil_of_sees hsees
    obtain ⟨t, ht, hopen⟩ := exists_of_sees hsees
    have hmem : ∃ t ∈ c.ahead, t.isPunctuation "]" := by
      obtain ⟨before, _ | ⟨u, ahead⟩⟩ := c
      · exact absurd rfl hne
      · cases ht
        exact exists_closer hclosed hopen
    have hsecond' : ((c.extend rest).seesSecond "]" || (c.extend rest).seesSecond ",") = true := by
      obtain ⟨before, _ | ⟨u, _ | ⟨v, ahead⟩⟩⟩ := c
      · exact absurd rfl hne
      · simp [seesSecond, second?] at hsecond
      · exact hsecond
    rw [typeSuffix?, sees_extend hne, sees_extend hne, sees_extend hne, if_neg hmark, hsees, hsecond', Bool.and_self,
      if_pos rfl, skipPast_extend hmem]
    exact ⟨rfl, skipPast_suffix _ _⟩

theorem exists_unmatched_of_suffix {xs ys : List Token} (h : ∃ closers, Token.unmatched ys = some closers)
    (hsuffix : xs <:+ ys) : ∃ closers, Token.unmatched xs = some closers := by
  obtain ⟨front, rfl⟩ := hsuffix
  induction front with
  | nil => exact h
  | cons t front ih => exact ih (Token.exists_unmatched h.choose_spec)

theorem skipSuffixes_extend (rest : List Token) (hy : y.kind ≠ .punctuation)
    (hclosed : ∃ closers, Token.unmatched c.ahead = some closers) (hend : c.skipSuffixes.ahead = []) :
    (c.extend (y :: rest)).skipSuffixes = c.skipSuffixes.extend (y :: rest) := by
  induction hn : c.size using Nat.strongRecOn generalizing c with
  | ind n ih =>
    cases hstep : c.typeSuffix? with
    | some d =>
      obtain ⟨hextend, hsuffix⟩ := typeSuffix_extend (y :: rest) hclosed hstep
      have hc : c.skipSuffixes = d.skipSuffixes := skipMany_of_some hstep
      rw [hc] at hend ⊢
      rw [← ih d.size (hn ▸ suffixStride.consumes hstep) (exists_unmatched_of_suffix hclosed hsuffix) hend rfl]
      exact skipMany_of_some hextend
    | none =>
      have hc : c.skipSuffixes = c := skipMany_of_none hstep
      rw [hc] at hend ⊢
      refine skipMany_of_none ?_
      show (c.extend (y :: rest)).typeSuffix? = none
      rw [typeSuffix?, sees_extend_nil hend hy, sees_extend_nil hend hy, sees_extend_nil hend hy]
      rfl

theorem skipSuffixes_eq_self (h : c.sees "?" = false ∧ c.sees "*" = false ∧ c.sees "[" = false) :
    c.skipSuffixes = c := by
  refine skipMany_of_none ?_
  show c.typeSuffix? = none
  rw [typeSuffix?, h.1, h.2.1, h.2.2]
  rfl

/-- Where no suffix begins, nothing is left of a text that its suffixes end. -/
theorem eq_nil_of_skipSuffixes (hend : c.skipSuffixes.ahead = [])
    (h : c.sees "?" = false ∧ c.sees "*" = false ∧ c.sees "[" = false) : c.ahead = [] := by
  rwa [skipSuffixes_eq_self h] at hend

theorem qualifiedNameRest_eq_self (h : c.sees "<" = false ∧ c.sees "." = false ∧ c.sees "::" = false) :
    c.qualifiedNameRest = c := by
  have harguments : c.skipTypeArguments = c := by
    rw [skipTypeArguments, typeArguments?, eat?, h.1]
    rfl
  have hqualifier : c.seesQualifier = false := by
    rw [seesQualifier, h.2.1, h.2.2]
    rfl
  rw [qualifiedNameRest]
  simp only [harguments, hqualifier, Bool.false_eq_true, ↓reduceIte]

theorem qualifiedNameRest_suffix (c : Cursor) : c.qualifiedNameRest.ahead <:+ c.ahead := by
  let C := Correspondence.invariant (c.before.reverse ++ c.ahead) (fun _ => True) fun _ => id
  have hbehind := ((C.lockstep c.size).qualifiedNameRest (c := c) (d := c) ⟨⟨rfl, rfl⟩, Nat.le_refl _⟩).1.2
  have hfile : c.qualifiedNameRest.ahead <:+ c.before.reverse ++ c.ahead := ⟨_, hbehind⟩
  exact List.suffix_of_suffix_length_le hfile (List.suffix_append _ _) (size_qualifiedNameRest_le c)

theorem qualifiedNameRest_extend (hy : y.kind ≠ .punctuation) (hend : c.qualifiedNameRest.skipSuffixes.ahead = []) :
    (c.extend (y :: rest)).qualifiedNameRest = c.qualifiedNameRest.extend (y :: rest) := by
  fun_induction qualifiedNameRest c with
  | case1 c named hqualifier ih =>
    obtain ⟨hdots, hname⟩ := Bool.and_eq_true_iff.mp hqualifier
    have hangle : named.sees "<" = false := by
      rcases Bool.or_eq_true_iff.mp hdots with hsees | hsees <;> exact sees_of_ne hsees (by decide)
    have hne : named.ahead ≠ [] := by
      rcases Bool.or_eq_true_iff.mp hdots with hsees | hsees <;> exact ahead_ne_nil_of_sees hsees
    have hne' : named.next.ahead ≠ [] := by
      intro hnil
      rw [second?, show named.ahead.tail = [] from hnil] at hname
      cases hname
    have hsecond : (named.extend (y :: rest)).second? = named.second? := by
      show (named.extend (y :: rest)).next.peek? = named.next.peek?
      rw [extend_next hne, peek_extend hne']
    have hextend : (named.extend (y :: rest)).seesQualifier = true := by
      rw [seesQualifier, sees_extend hne, sees_extend hne, hdots, hsecond, hname, Bool.and_self]
    rw [qualifiedNameRest, skipTypeArguments_extend hy hangle]
    simp only [show c.skipTypeArguments = named from rfl, hextend, ↓reduceIte]
    rw [extend_next hne, extend_next hne']
    exact ih hend
  | case2 c named hqualifier =>
    have hnone {mark : String} (hsees : named.sees mark) (hmark : mark ≠ "?" ∧ mark ≠ "*" ∧ mark ≠ "[") : False :=
      ahead_ne_nil_of_sees hsees (eq_nil_of_skipSuffixes hend
        ⟨sees_of_ne hsees hmark.1, sees_of_ne hsees hmark.2.1, sees_of_ne hsees hmark.2.2⟩)
    have hangle : named.sees "<" = false := Bool.eq_false_iff.mpr fun hsees => hnone hsees (by decide)
    have hdot : named.sees "." = false := Bool.eq_false_iff.mpr fun hsees => hnone hsees (by decide)
    have hcolons : named.sees "::" = false := Bool.eq_false_iff.mpr fun hsees => hnone hsees (by decide)
    have hextend : (named.extend (y :: rest)).seesQualifier = false := by
      rw [seesQualifier, sees_extend_cons hy, sees_extend_cons hy, hdot, hcolons]
      rfl
    rw [qualifiedNameRest, skipTypeArguments_extend hy hangle]
    simp only [show c.skipTypeArguments = named from rfl, hextend, Bool.false_eq_true, ↓reduceIte]

end

end Cursor

open Cursor

namespace Token

theorem typeInside_identifier {t : Token} (ht : t.isIdentifier) (before rest : List Token) :
    typeInside 0 ⟨before, t :: rest⟩ = some (Cursor.mk (t :: before) rest).qualifiedNameRest.skipSuffixes := by
  have hname : t.isName = true := by rw [isName, ht, Bool.true_or]
  have hparen : t.isPunctuation "(" = false := not_isPunctuation_of_isName hname _
  rw [typeInside_eq]
  simp only [peek?, List.head?_cons, hparen, hname, Bool.true_or, Bool.false_eq_true, ↓reduceIte, closeTuples_zero]
  rfl

/-- A type that is a single word ends in front of a name. -/
theorem type?_word {t y : Token} (ht : t.isName || t.isBuiltInType) (hparen : t.isPunctuation "(" = false)
    (hy : y.kind ≠ .punctuation) (before rest : List Token) :
    ∃ isVar, type? ⟨before, t :: y :: rest⟩ = some (isVar, ⟨t :: before, y :: rest⟩) := by
  have hnot (mark : String) : (Cursor.mk (t :: before) (y :: rest)).sees mark = false :=
    not_isPunctuation_of_kind hy mark
  have hinside : typeInside 0 ⟨before, t :: y :: rest⟩ = some ⟨t :: before, y :: rest⟩ := by
    rw [typeInside_eq]
    simp only [peek?, List.head?_cons, hparen, ht, Bool.false_eq_true, ↓reduceIte, closeTuples_zero]
    rw [show (Cursor.mk before (t :: y :: rest)).next = ⟨t :: before, y :: rest⟩ from rfl,
      qualifiedNameRest_eq_self ⟨hnot _, hnot _, hnot _⟩, skipSuffixes_eq_self ⟨hnot _, hnot _, hnot _⟩]
  exact ⟨_, Option.map_eq_some_iff.mpr ⟨_, hinside, rfl⟩⟩

/-- The tokens of type references. -/
def isTypeToken (t : Token) : Bool := isTypeArgumentToken t || t.isPunctuation "<" || t.isPunctuation ">"

/-- The text of a type reference that begins with an identifier: a reader of types consumes all of it. The reader alone
would take any token inside an array rank, and brackets that nothing closes. -/
structure TypeText (text : List Token) : Prop where
  head : ∃ t, text.head? = some t ∧ t.isIdentifier
  tokens {t : Token} : t ∈ text → isTypeToken t
  nested : Nested text
  consumed : ∃ isVar c, type? ⟨[], text⟩ = some (isVar, c) ∧ c.ahead = []

namespace TypeText

variable {text : List Token}

theorem iff_checks :
    (text.head?.any (·.isIdentifier) ∧ (∀ t ∈ text, isTypeToken t) ∧ Nested text ∧
      (type? ⟨[], text⟩).any (·.2.ahead.isEmpty)) ↔ TypeText text := by
  constructor
  · rintro ⟨hhead, htokens, hnested, hread⟩
    obtain ⟨⟨isVar, c⟩, hread, hc⟩ := (Option.any_eq_true _ _).mp hread
    exact ⟨(Option.any_eq_true _ _).mp hhead, htokens _, hnested, isVar, c, hread, List.isEmpty_iff.mp hc⟩
  · intro h
    obtain ⟨isVar, c, hread, hc⟩ := h.consumed
    refine ⟨(Option.any_eq_true _ _).mpr h.head, fun t => h.tokens, h.nested, ?_⟩
    rw [hread, Option.any_some, hc]
    rfl

instance : Decidable (TypeText text) := decidable_of_iff _ iff_checks

/-- Behind its first identifier there are only type arguments, qualifiers and suffixes. -/
theorem exists_cons (h : TypeText text) :
    ∃ t inner, text = t :: inner ∧ t.isIdentifier ∧
      ∀ before, (Cursor.mk (t :: before) inner).qualifiedNameRest.skipSuffixes.ahead = [] := by
  obtain ⟨t, hhead, ht⟩ := h.head
  obtain ⟨u, inner, rfl⟩ := List.exists_cons_of_ne_nil (l := text) (by rintro rfl; cases hhead)
  cases hhead
  refine ⟨t, inner, rfl, ht, fun before => ?_⟩
  obtain ⟨isVar, c, hread, hc⟩ := h.consumed
  obtain ⟨d, hinside, heq⟩ := Option.map_eq_some_iff.mp hread
  cases heq
  rw [typeInside_identifier ht] at hinside
  cases hinside
  -- What was consumed before decides nothing.
  let C := Correspondence.shifted ⟨[t], inner⟩ ⟨t :: before, inner⟩ (fun _ => rfl) 0 0 [] []
    (E := fun _ _ => True) fun _ _ _ _ => trivial
  have hstart : C.cursors ⟨[t], inner⟩ ⟨t :: before, inner⟩ := .refl (List.forall₂_same.mpr fun _ _ => .rfl)
  have hK := C.lockstep inner.length
  have hend := C.ahead (hK.skipSuffixes (hK.qualifiedNameRest ⟨hstart, Nat.le_refl _⟩)).1
  rw [hc] at hend
  exact List.forall₂_nil_left_iff.mp hend

/-- The reader stops at a name behind the type. -/
theorem type?_append (h : TypeText text) {y : Token} (hy : y.kind ≠ .punctuation) (before rest : List Token) :
    ∃ isVar c, type? ⟨before, text ++ y :: rest⟩ = some (isVar, c) ∧ c.ahead = y :: rest := by
  obtain ⟨t, inner, rfl, ht, hend⟩ := h.exists_cons
  have hclosed := exists_unmatched_of_suffix (exists_unmatched h.nested) (qualifiedNameRest_suffix ⟨t :: before, inner⟩)
  have hread := skipSuffixes_extend rest hy hclosed (hend before)
  rw [← qualifiedNameRest_extend hy (hend before)] at hread
  have hinside : typeInside 0 ⟨before, t :: inner ++ y :: rest⟩ =
      some ((Cursor.mk (t :: before) inner).extend (y :: rest)).qualifiedNameRest.skipSuffixes :=
    typeInside_identifier ht before (inner ++ y :: rest)
  refine ⟨_, _, Option.map_eq_some_iff.mpr ⟨_, hinside, rfl⟩, ?_⟩
  rw [hread, extend, hend before, List.nil_append]

/-- A token behind the first identifier is a mark, and none that begins a parameter list. -/
theorem second_mark {t u : Token} {more : List Token} (h : TypeText (t :: u :: more)) :
    u.kind = .punctuation ∧ u.isPunctuation "(" = false := by
  obtain ⟨t', inner, heq, -, hend⟩ := h.exists_cons
  cases heq
  have hmark : ∃ mark, mark ≠ "(" ∧ u.isPunctuation mark := by
    refine Classical.byContradiction fun hnone => ?_
    have hnot {mark : String} (hmark : mark ≠ "(") : (Cursor.mk [t] (u :: more)).sees mark = false :=
      Bool.eq_false_iff.mpr fun hsees => hnone ⟨mark, hmark, hsees⟩
    have hname : (Cursor.mk [t] (u :: more)).qualifiedNameRest = ⟨[t], u :: more⟩ :=
      qualifiedNameRest_eq_self ⟨hnot (by decide), hnot (by decide), hnot (by decide)⟩
    have hsuffixes := hend []
    rw [hname] at hsuffixes
    cases eq_nil_of_skipSuffixes hsuffixes ⟨hnot (by decide), hnot (by decide), hnot (by decide)⟩
  obtain ⟨mark, hmark, hu⟩ := hmark
  exact ⟨(eq_of_isPunctuation hu).1, isPunctuation_of_ne hu hmark⟩

end TypeText

end Token

end CSharpStyle
