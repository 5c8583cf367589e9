import CSharpStyle.Proofs.Recording.Cursor

/-!
# Commas between names

The first name of a declaration stands behind its type, or behind the dot of an interface that it is qualified by. Each
further one stands directly behind a comma. No type ends with a comma, so that the names of a declaration are told from
those of the one in front of it by the token in front of them.

* `Joined`: a name and the names in front of it that it goes on with.
* `Cursor.Joins`: the next name would go on with these.
* `Cursor.joins_of_type?`: behind a type comes a first name.
-/

namespace CSharpStyle

/-- A name that was consumed stands directly behind a comma if and only if it goes on with other names. -/
def Joined (before names : List Token) (t : Token) : Prop :=
  ∃ p, [t, p] <:+: before ∧ (p.isPunctuation "," ↔ names ≠ [])

theorem Joined.mono {before before' names : List Token} {t : Token} (h : Joined before names t)
    (hbehind : before <:+ before') : Joined before' names t := by
  obtain ⟨p, hp, hcomma⟩ := h
  exact ⟨p, hp.trans hbehind.isInfix, hcomma⟩

namespace Cursor

open Token (isPunctuation_of_ne not_isPunctuation_of_isName not_isPunctuation_of_kind)

variable {c d : Cursor} {names : List Token} {t : Token}

/-- A name that comes next stands directly behind a comma if and only if it goes on with other names. -/
def Joins (c : Cursor) (names : List Token) : Prop :=
  c.ahead ≠ [] → ∃ p, c.before.head? = some p ∧ (p.isPunctuation "," ↔ names ≠ [])

theorem Joins.name? (h : c.Joins names) (hname : c.name? = some (t, d)) : Joined d.before names t := by
  have hahead : c.ahead ≠ [] := by
    rw [Cursor.name?] at hname
    split at hname
    · exact ahead_ne_nil_of_peek? ‹_›
    · cases hname
  obtain ⟨p, hp, hcomma⟩ := h hahead
  obtain ⟨rest, hbefore⟩ := List.head?_eq_some_iff.mp hp
  refine ⟨p, ?_, hcomma⟩
  rw [before_of_name? hname, hbefore]
  exact ⟨[], rest, rfl⟩

/-- Behind a comma a name goes on with the ones in front. -/
theorem joins_of_eat? (h : c.eat? "," = some d) (hnames : names ≠ []) : d.Joins names := by
  obtain ⟨hsees, heq⟩ := Option.ite_none_right_eq_some.mp h
  obtain ⟨p, hp, hcomma⟩ := exists_of_sees hsees
  cases heq
  intro _
  exact ⟨p, by rw [before_next hp]; rfl, iff_of_true hcomma hnames⟩

/-! ### Behind a type -/

theorem joins_next (hpeek : c.peek? = some t) (ht : t.isPunctuation "," = false) : c.next.Joins [] := by
  intro _
  exact ⟨t, by rw [before_next hpeek]; rfl, by simp [ht]⟩

theorem joins_next_of_sees {mark : String} (h : c.sees mark) (hmark : mark ≠ ",") : c.next.Joins [] := by
  obtain ⟨t, hpeek, ht⟩ := exists_of_sees h
  exact joins_next hpeek (isPunctuation_of_ne ht hmark)

theorem joins_skipPast {mark : String} (hmark : mark ≠ ",") (c : Cursor) : (c.skipPast mark).Joins [] := by
  rw [skipPast]
  split
  · intro hahead
    exact absurd (List.isEmpty_iff.mp ‹_›) hahead
  · rename_i hstop
    have hahead : (c.skipWhile (!·.isPunctuation mark)).ahead ≠ [] := fun hnil => hstop (List.isEmpty_iff.mpr hnil)
    have hmarked : (!((c.skipWhile (!·.isPunctuation mark)).ahead.head hahead).isPunctuation mark) = false :=
      List.head_dropWhile_not (fun t : Token => !t.isPunctuation mark) hahead
    have hpeek : (c.skipWhile (!·.isPunctuation mark)).peek? = some _ := List.head?_eq_some_head hahead
    exact joins_next hpeek (isPunctuation_of_ne (by simpa using hmarked) hmark)

theorem joins_closeTypeArguments {depth : Nat} {before ahead : List Token}
    (h : closeTypeArguments depth before ahead = some d) : d.Joins [] := by
  fun_induction closeTypeArguments depth before ahead with
  | case1 | case6 => cases h
  | case3 depth before t ahead hopen hclose hlast =>
    cases h
    intro _
    exact ⟨t, rfl, by simp [isPunctuation_of_ne hclose (show ">" ≠ "," by decide)]⟩
  | case2 depth before t ahead hopen ih | case4 depth before t ahead hopen hclose hlast ih
  | case5 depth before t ahead hopen hclose htoken ih => exact ih h

theorem Joins.skipTypeArguments (h : c.Joins []) : c.skipTypeArguments.Joins [] := by
  rw [Cursor.skipTypeArguments]
  cases hread : c.typeArguments? with
  | none => exact h
  | some d =>
    rw [typeArguments?] at hread
    split at hread
    · exact joins_closeTypeArguments hread
    · cases hread

theorem Joins.qualifiedNameRest (h : c.Joins []) : c.qualifiedNameRest.Joins [] := by
  fun_induction Cursor.qualifiedNameRest c with
  | case1 c named hqualifier ih =>
    obtain ⟨name, hname, hisName⟩ := (Option.any_eq_true _ _).mp (Bool.and_eq_true_iff.mp hqualifier).2
    exact ih (joins_next hname (not_isPunctuation_of_isName hisName ","))
  | case2 c named hqualifier => exact h.skipTypeArguments

theorem Joins.skipSuffixes (h : c.Joins []) : c.skipSuffixes.Joins [] := by
  rw [Cursor.skipSuffixes]
  fun_induction skipMany suffixStride c with
  | case1 c d hstep ih =>
    refine ih ?_
    have hstep : c.typeSuffix? = some d := hstep
    rw [typeSuffix?] at hstep
    split at hstep
    · cases hstep
      rcases Bool.or_eq_true_iff.mp ‹_› with hsees | hsees
      · exact joins_next_of_sees hsees (by decide)
      · exact joins_next_of_sees hsees (by decide)
    · obtain ⟨-, heq⟩ := Option.ite_none_right_eq_some.mp hstep
      cases heq
      exact joins_skipPast (by decide) c
  | case2 => exact h

/-- The induction is that of the reader, with one statement for each of its functions. -/
theorem joins_typeInside {depth : Nat} (h : typeInside depth c = some d) : d.Joins [] := by
  refine typeInside.induct (fun depth c => ∀ d, typeInside depth c = some d → d.Joins [])
    (fun depth c => ∀ d, c.Joins [] → closeTuples depth c = some d → d.Joins [])
    ?nothing ?tuple ?name ?other ?closed ?comma ?closing ?unclosed depth c d h
  case nothing =>
    intro depth c hpeek d h
    rw [typeInside_eq, hpeek] at h
    cases h
  case tuple =>
    intro depth c t hpeek hparen ih d h
    simp only [typeInside_eq depth, hpeek, if_pos hparen] at h
    exact ih d h
  case name =>
    intro depth c t hpeek hparen hname ih d h
    simp only [typeInside_eq depth, hpeek, if_neg hparen, if_pos hname] at h
    have hcomma : t.isPunctuation "," = false := by
      rcases Bool.or_eq_true_iff.mp hname with ht | ht
      · exact not_isPunctuation_of_isName ht ","
      · exact not_isPunctuation_of_kind (fun hkind => by simp [Token.isBuiltInType, hkind] at ht) ","
    exact ih d (joins_next hpeek hcomma).qualifiedNameRest.skipSuffixes h
  case other =>
    intro depth c t hpeek hparen hname d h
    simp only [typeInside_eq depth, hpeek, if_neg hparen, if_neg hname] at h
    cases h
  case closed =>
    intro c d hc h
    rw [closeTuples_zero] at h
    cases h
    exact hc
  case comma =>
    intro c outer e hcomma ih d _ h
    simp only [closeTuples_succ, hcomma] at h
    exact ih d h
  case closing =>
    intro c outer hcomma e hclose ih d _ h
    simp only [closeTuples_succ, hcomma, hclose] at h
    obtain ⟨hsees, heq⟩ := Option.ite_none_right_eq_some.mp hclose
    have hbehind : e.Joins [] := by
      cases heq
      exact joins_next_of_sees hsees (by decide)
    exact ih d hbehind.skipSuffixes h
  case unclosed =>
    intro c outer hcomma hclose d _ h
    simp only [closeTuples_succ, hcomma, hclose] at h
    cases h

/-- Behind a type comes a first name. -/
theorem joins_of_type? {isVar : Bool} (h : c.type? = some (isVar, d)) : d.Joins [] := by
  obtain ⟨behind, hinside, heq⟩ := Option.map_eq_some_iff.mp h
  cases heq
  exact joins_typeInside hinside

theorem joins_of_localDeclaration? {context : LocalContext} {isVar : Bool}
    (h : c.localDeclaration? context = some (.type isVar, d)) : d.Joins [] := by
  have hdeconstruction {usesVar : Bool} {c : Cursor} (h : c.deconstruction? usesVar = some (.type isVar, d)) :
      False := by
    rw [deconstruction?] at h
    split at h
    · obtain ⟨behind, -, heq⟩ := Option.map_eq_some_iff.mp h
      cases heq
    · cases h
  rw [localDeclaration?] at h
  split at h
  · exact (hdeconstruction h).elim
  · split at h
    · exact (hdeconstruction h).elim
    · rw [declaredType?] at h
      split at h
      · cases h
      · obtain ⟨-, heq⟩ := Option.ite_none_right_eq_some.mp h
        cases heq
        exact joins_of_type? ‹_›

/-- A name behind the qualifiers of another one is a first name as that is. -/
theorem joined_qualifiedMember {name : Token} (h : Joined c.before [] name) (isExplicit : Bool) :
    Joined (qualifiedMember name isExplicit c).2.before [] (qualifiedMember name isExplicit c).1.1 := by
  have harguments (c : Cursor) : c.before <:+ c.skipTypeArguments.before :=
    ((lockstep_suffix c.before).skipTypeArguments ⟨rfl, List.suffix_rfl⟩).2
  fun_induction qualifiedMember name isExplicit c with
  | case1 | case4 | case5 => exact h
  | case2 name isExplicit c qualifier hdot t ht hname ih =>
    have hsegment : qualifier.next.name? = some (t, qualifier.next.next) := by
      rw [Cursor.name?, ht]
      exact if_pos hname
    exact ih ((joins_next_of_sees hdot (by decide)).name? hsegment)
  | case3 name isExplicit c qualifier hdot t ht hname hthis =>
    exact h.mono ((harguments c).trans (suffix_next _))

end Cursor

end CSharpStyle
