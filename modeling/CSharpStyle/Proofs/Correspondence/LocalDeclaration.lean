import CSharpStyle.Proofs.Correspondence.Signature

/-!
# Corresponding local declarations

What an initializer is classified as depends on the kinds and texts of its tokens only, so local declarations are
recorded alike.
-/

namespace CSharpStyle

/-! ### Initializers -/

namespace Initializer

/-- The lists of tokens differ at most in the places of the tokens. -/
abbrev Alike (xs ys : List Token) : Prop := List.Forall₂ Token.Alike xs ys

theorem isEmpty_eq {xs ys : List Token} (h : Alike xs ys) : xs.isEmpty = ys.isEmpty := by
  cases h <;> rfl

theorem isTypeToken_eq {t u : Token} (h : t.Alike u) : isTypeToken t = isTypeToken u := by
  rw [isTypeToken, isTypeToken, h.kind, h.text]

theorem splitGroup?_rel {xs ys : List Token} (h : Alike xs ys) (depth : Nat) :
    Option.Rel (fun p q => Alike p.1 q.1 ∧ Alike p.2 q.2) (splitGroup? depth xs) (splitGroup? depth ys) := by
  induction h generalizing depth with
  | nil => exact .none
  | @cons t u xs ys htu hrest ih =>
    have hcons (depth : Nat) : Option.Rel (fun p q => Alike p.1 q.1 ∧ Alike p.2 q.2)
        ((splitGroup? depth xs).map fun split => (t :: split.1, split.2))
        ((splitGroup? depth ys).map fun split => (u :: split.1, split.2)) := by
      rcases rel_cases (ih depth) with ⟨hx, hy⟩ | ⟨p, q, hx, hy, hgroup, hbehind⟩
      · rw [hx, hy]; exact .none
      · rw [hx, hy]; exact .some ⟨.cons htu hgroup, hbehind⟩
    simp only [splitGroup?, ← htu.isOpener, ← htu.isCloser]
    split
    · exact hcons _
    · split
      · cases depth with
        | zero => exact .none
        | succ depth =>
          cases depth with
          | zero => exact .some ⟨.cons htu .nil, hrest⟩
          | succ outer => exact hcons _
      · exact hcons _

theorem onlyGroups_eq {xs ys : List Token} (h : Alike xs ys) : onlyGroups xs = onlyGroups ys := by
  induction hn : xs.length using Nat.strongRecOn generalizing xs ys with
  | ind n ih =>
    cases h with
    | nil => rfl
    | @cons t u xs ys htu hrest =>
      rw [onlyGroups_cons, onlyGroups_cons, ← htu.isOpener]
      rcases rel_cases (splitGroup?_rel (.cons htu hrest) 0) with ⟨hx, hy⟩ | ⟨p, q, hx, hy, hgroup, hbehind⟩
      · rw [hx, hy]
      · rw [hx, hy]
        simp only [ih p.2.length (hn ▸ length_behind_lt hx) hbehind rfl]

theorem isCompleteCreation_eq {xs ys : List Token} (h : Alike xs ys) :
    isCompleteCreation xs = isCompleteCreation ys := by
  rw [isCompleteCreation, isCompleteCreation]
  refine onlyGroups_eq ?_
  induction h with
  | nil => exact .nil
  | @cons t u xs ys htu hrest ih =>
    simp only [List.dropWhile_cons, ← isTypeToken_eq htu, ← htu.isPunctuation]
    split
    · exact ih
    · exact .cons htu hrest

theorem isCast_eq {inner inner' operand operand' : List Token} (h : Alike inner inner')
    (hoperand : Alike operand operand') : isCast inner operand = isCast inner' operand' := by
  cases h with
  | nil => rfl
  | @cons first first' more more' hfirst hmore =>
    cases hoperand with
    | nil => rfl
    | cons ht _ =>
      have hall : more.all isTypeToken = more'.all isTypeToken := by
        induction hmore with
        | nil => rfl
        | cons htu _ ih => rw [List.all_cons, List.all_cons, isTypeToken_eq htu, ih]
      simp only [isCast, List.all_cons, isTypeToken_eq hfirst, hall, hfirst.kind, ht.kind, ht.text, isEmpty_eq hmore,
        hfirst.isBuiltInType]

theorem isApparent_eq {xs ys : List Token} (h : Alike xs ys) : isApparent xs = isApparent ys := by
  induction hn : xs.length using Nat.strongRecOn generalizing xs ys with
  | ind n ih =>
    cases h with
    | nil => rfl
    | cons hfirst hrest =>
      cases hrest with
      | nil => rw [isApparent, isApparent, Token.isLiteral, Token.isLiteral, hfirst.kind]
      | @cons second second' rest rest' hsecond hmore =>
        rw [isApparent_cons_cons, isApparent_cons_cons, isEmpty_eq hmore, hfirst.isPunctuation, hfirst.isPunctuation,
          hfirst.isPunctuation, hfirst.isKeyword, isCompleteCreation_eq (.cons hsecond hmore), Token.isLiteral,
          Token.isLiteral, hsecond.kind]
        rcases rel_cases (splitGroup?_rel (.cons hfirst (.cons hsecond hmore)) 0) with
          ⟨hx, hy⟩ | ⟨p, q, hx, hy, hgroup, hoperand⟩
        · rw [hx, hy]
        · have hinner : Alike p.1.tail.dropLast q.1.tail.dropLast := by
            rw [List.dropLast_eq_take, List.dropLast_eq_take, List.length_tail, List.length_tail, hgroup.length_eq,
              ← List.drop_one, ← List.drop_one]
            exact List.forall₂_take _ (List.forall₂_drop 1 hgroup)
          rw [hx, hy]
          simp only [ih _ (hn ▸ length_inner_lt hx) hinner rfl, isCast_eq hinner hoperand, isEmpty_eq hoperand]

theorem classify_eq {xs ys : List Token} (h : Alike xs ys) : classify xs = classify ys := by
  rw [classify, classify, isApparent_eq h]

end Initializer

namespace Correspondence

open Cursor

variable {C : Correspondence} {n : Nat} {f g : StatementReader} {s t : Reading} {i j : ScopeId}

/-- The tokens between corresponding cursors are alike. -/
theorem upTo_alike {c d c' d' : Cursor} (h : C.cursors c d) (h' : C.cursors c' d') :
    Initializer.Alike (c.upTo c') (d.upTo d') := by
  rw [Cursor.upTo, Cursor.upTo, (C.ahead h).length_eq, (C.ahead h').length_eq]
  exact List.forall₂_take _ ((C.ahead h).imp fun _ _ => C.alike)

theorem initializer (hread : C.Statements n f g) (h : C.Related s t) (hij : C.scopes s.outline t.outline i j)
    (hn : s.size ≤ n) (stops : List String) :
    (Reading.initializer f i stops s).1 = (Reading.initializer g j stops t).1 ∧
      C.Leads s t (Reading.initializer f i stops s).2 (Reading.initializer g j stops t).2 := by
  have hskip := skipExpression hread h hij hn stops
  exact ⟨Initializer.classify_eq (upTo_alike h.cursor hskip.related.cursor), hskip⟩

theorem Related.declareLocal (h : C.Related s t) (hij : C.scopes s.outline t.outline i j) {d e : Declarator}
    (hde : d.Alike C.tokens e) (role : Role) (inForeach : Bool) (apparentness : Apparentness)
    {place place' : Option GroupPlace}
    (hplace : Option.Rel (GroupPlace.Alike C.groups) place place') :
    C.Leads s t (s.declareLocal i d role inForeach apparentness place)
      (t.declareLocal j e role inForeach apparentness place') := by
  refine h.declare hij ⟨(C.alike hde.token).identifierName, rfl, rfl, rfl, ?_, C.start hde.token, hplace⟩
  rw [hde.usesVar]

/-- All names of a pattern are recorded. -/
theorem Related.declareNames (h : C.Related s t) (hij : C.scopes s.outline t.outline i j)
    {names names' : List Declarator} (hnames : List.Forall₂ (Declarator.Alike C.tokens) names names')
    (inForeach : Bool) (apparentness : Apparentness) :
    C.Leads s t
      (names.foldl (fun s d => s.declareLocal i d .localVariable inForeach apparentness none) s)
      (names'.foldl (fun t d => t.declareLocal j d .localVariable inForeach apparentness none) t) := by
  induction hnames generalizing s t with
  | nil => exact .refl h
  | cons hde _ ih =>
    have hdeclare := h.declareLocal hij hde .localVariable inForeach apparentness .none
    exact hdeclare.trans (ih hdeclare.related (hdeclare.scopes hij))

theorem declaratorValue (hread : C.Statements n f g) (h : C.Related s t)
    (hij : C.scopes s.outline t.outline i j) (hn : s.size ≤ n) :
    (Reading.declaratorValue f i s).1 = (Reading.declaratorValue g j t).1 ∧
      C.Leads s t (Reading.declaratorValue f i s).2 (Reading.declaratorValue g j t).2 := by
  rw [Reading.declaratorValue, Reading.declaratorValue]
  rcases h.eat_cases "=" with ⟨hs, ht⟩ | ⟨s', t', hs, ht, h'⟩
  · rw [hs, ht]; exact ⟨rfl, .refl h⟩
  · obtain ⟨happarentness, hvalue⟩ := initializer hread h'.leads.related (h'.leads.scopes hij)
      (Nat.le_trans h'.leads.size_le hn) [","]
    rw [hs, ht]; exact ⟨happarentness, h'.leads.trans hvalue⟩

theorem localFunction (hread : C.Statements n f g) (h : C.Related s t) (hij : C.scopes s.outline t.outline i j)
    (hn : s.size ≤ n) {a b : Token} (hab : C.tokens a b) :
    C.Leads s t (Reading.localFunction f i a s) (Reading.localFunction g j b t) := by
  have hdeclare := h.declareName hij hab .privateMember .localFunction .isPrivate
  rw [Reading.localFunction, Reading.localFunction, (C.alike hab).identifierName]
  exact hdeclare.trans (settle
    (methodRest hread hdeclare.related (hdeclare.scopes hij) (Nat.le_trans hdeclare.size_le hn) _))

theorem endDeclaration (hread : C.Statements n f g) (h : C.Related s t) (hij : C.scopes s.outline t.outline i j)
    (hn : s.size ≤ n) (context : LocalContext) :
    C.Leads s t (Reading.endDeclaration f context i s) (Reading.endDeclaration g context j t) := by
  rw [Reading.endDeclaration, Reading.endDeclaration]
  split
  · exact .refl h
  · rcases h.eat_cases ";" with ⟨hs, ht⟩ | ⟨s', t', hs, ht, h'⟩
    · rw [hs, ht]
      have hreport := h.report (.expected "';' after local declaration")
      exact hreport.trans (skipToStatementEnd hread hreport.related (hreport.scopes hij)
        (Nat.le_trans hreport.size_le hn))
    · rw [hs, ht]; exact h'.leads

theorem declaratorRound (hread : C.Statements n f g) (h : C.Related s t)
    (hij : C.scopes s.outline t.outline i j) (hn : s.size ≤ n) (context : LocalContext) (isVar : Bool)
    {group group' : Option Nat} (hgroup : Option.Rel C.groups group group') (index : Nat) :
    Round.Rel (fun a b => a.1 = b.1 ∧ C.Advances s t a.2 b.2) (C.Leads s t)
      (Reading.declaratorRound f context i isVar group (index, s))
      (Reading.declaratorRound g context j isVar group' (index, t)) := by
  simp only [Reading.declaratorRound]
  rcases h.name_cases with ⟨hs, ht⟩ | ⟨a, b, s', t', hs, ht, hab, hname⟩
  · rw [hs, ht]
    have hreport := h.report (.expectedName "declarator after ','")
    exact .done (hreport.trans (skipToStatementEnd hread hreport.related (hreport.scopes hij)
      (Nat.le_trans hreport.size_le hn)))
  · obtain ⟨happarentness, hvalue⟩ := declaratorValue hread hname.leads.related (hname.leads.scopes hij)
      (Nat.le_trans hname.leads.size_le hn)
    have hvalue := hname.trans hvalue
    have hplace : Option.Rel (GroupPlace.Alike C.groups) (group.map fun group => ⟨group, index⟩)
        (group'.map fun group => ⟨group, index⟩) := by
      cases hgroup with
      | none => exact .none
      | some hgroup => exact .some ⟨hgroup, rfl⟩
    simp only [hs, ht, ← happarentness]
    have hdeclare := hvalue.trans (hvalue.leads.related.declareLocal (hvalue.leads.scopes hij)
      (d := ⟨a, isVar⟩) (e := ⟨b, isVar⟩) ⟨hab, rfl⟩ (if context = .constant then .constant else .localVariable) false
      (Reading.declaratorValue f i s').1 hplace)
    rcases hdeclare.leads.related.eat_cases "," with ⟨hs, ht⟩ | ⟨s'', t'', hs, ht, hcomma⟩
    · simp only [hs, ht]
      exact .done (hdeclare.leads.trans (endDeclaration hread hdeclare.leads.related (hdeclare.leads.scopes hij)
        (Nat.le_trans hdeclare.leads.size_le hn) context))
    · simp only [hs, ht]
      exact .again ⟨rfl, hdeclare.trans hcomma.leads⟩

theorem declarators (hread : C.Statements n f g) (h : C.Related s t) (hij : C.scopes s.outline t.outline i j)
    (hn : s.size ≤ n) (context : LocalContext) (isVar : Bool) :
    C.Leads s t (Reading.declarators f context i isVar s) (Reading.declarators g context j isVar t) := by
  have hloop {s' t' : Reading} (h' : C.Leads s t s' t') {group group' : Option Nat}
      (hgroup : Option.Rel C.groups group group') :
      C.Leads s t
        (rounds (·.2.size) (Reading.declaratorRound f context i isVar group) (·.2.stall) (0, s'))
        (rounds (·.2.size) (Reading.declaratorRound g context j isVar group') (·.2.stall) (0, t')) := by
    refine rounds_leads_with Prod.snd Prod.snd (fun a b => a.1 = b.1) ?_ rfl h'
    rintro ⟨index, s''⟩ ⟨index', t''⟩ hindex h''
    cases hindex
    exact (declaratorRound hread h''.related (h''.scopes hij) (Nat.le_trans h''.size_le hn) context isVar hgroup
      index).imp id h''.trans
  rw [Reading.declarators, Reading.declarators]
  by_cases hcontext : context = .forInitializer
  · simp only [if_pos hcontext]
    exact hloop (.refl h) .none
  · obtain ⟨hgroup, hopen⟩ := h.newGroup
    simp only [if_neg hcontext]
    exact hloop hopen (.some hgroup)

theorem deconstruction (hread : C.Statements n f g) (h : C.Related s t)
    (hij : C.scopes s.outline t.outline i j) (hn : s.size ≤ n) {names names' : List Declarator}
    (hnames : List.Forall₂ (Declarator.Alike C.tokens) names names') :
    C.Leads s t (Reading.deconstruction f i names s) (Reading.deconstruction g j names' t) := by
  obtain ⟨happarentness, hvalue⟩ := initializer hread h hij hn []
  have hdeclare := hvalue.trans (hvalue.related.declareNames (hvalue.scopes hij) hnames false
    (Reading.initializer f i [] s).1)
  simp only [Reading.deconstruction, ← happarentness]
  exact hdeclare.trans (hdeclare.related.skip ";")

theorem localDeclarationOr (hread : C.Statements n f g) (h : C.Related s t)
    (hij : C.scopes s.outline t.outline i j) (hn : s.size ≤ n) (context : LocalContext)
    {otherwise otherwise' : Reading → Reading} (hother : C.Leads s t (otherwise s) (otherwise' t)) :
    C.Leads s t (Reading.localDeclarationOr f context i otherwise s)
      (Reading.localDeclarationOr g context j otherwise' t) := by
  rw [Reading.localDeclarationOr, Reading.localDeclarationOr]
  rcases rel_cases ((C.lockstep s.size).localDeclaration? h.within context) with
    ⟨hs, ht⟩ | ⟨⟨beginning, c⟩, ⟨beginning', d⟩, hs, ht, hbeginning, hmove⟩
  · rw [hs, ht]; exact hother
  · have hmove := h.move hmove
    have hn' := Nat.le_trans hmove.size_le hn
    rw [hs, ht]
    refine hmove.trans ?_
    cases hbeginning with
    | pattern hnames => exact deconstruction hread hmove.related (hmove.scopes hij) hn' hnames
    | type isVar => exact declarators hread hmove.related (hmove.scopes hij) hn' context isVar

end Correspondence

end CSharpStyle
