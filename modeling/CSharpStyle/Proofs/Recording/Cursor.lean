import CSharpStyle.Proofs.Correspondence.Cursor
import Mathlib.Data.List.Perm.Subperm

/-!
# Names are consumed once

A cursor never moves back. The names that are read on the way are tokens behind the cursor, each at a place of its own,
so that no token is read as a name twice.

* `Cursor.Covers c held`: the tokens in `held` stand behind the cursor, each at its own place.
* `Cursor.Lockstep.suffix`: what readers of cursors leave behind them stays there.
* `Cursor.Covers.name?`, `Cursor.Covers.pattern`: a name that is read is new.
-/

namespace CSharpStyle

namespace Cursor

variable {c d : Cursor} {held : List Token} {t : Token}

/-- The tokens were consumed, each at a place of its own. -/
def Covers (c : Cursor) (held : List Token) : Prop := held.Subperm c.before

namespace Covers

/-- Nothing that was consumed is lost. -/
theorem mono (h : c.Covers held) (hbehind : c.before <:+ d.before) : d.Covers held :=
  List.Subperm.trans h hbehind.sublist.subperm

theorem perm (h : c.Covers held) {held' : List Token} (hperm : held'.Perm held) : c.Covers held' :=
  hperm.subperm.trans h

theorem tail (h : c.Covers (t :: held)) : c.Covers held := (List.sublist_cons_self t held).subperm.trans h

theorem cons (h : c.Covers held) (hbefore : d.before = t :: c.before) : d.Covers (t :: held) := by
  rw [Covers, hbefore]
  exact (List.subperm_cons t).mpr h

end Covers

/-! ### Readers move forward -/

theorem suffix_next (c : Cursor) : c.before <:+ c.next.before := List.suffix_cons _ _

theorem suffix_skipWhile (c : Cursor) (p : Token → Bool) : c.before <:+ (c.skipWhile p).before :=
  List.suffix_append _ _

theorem suffix_skipPast (c : Cursor) (mark : String) : c.before <:+ (c.skipPast mark).before := by
  have hstop := c.suffix_skipWhile (!·.isPunctuation mark)
  simp only [skipPast]
  split
  · exact hstop
  · exact hstop.trans (suffix_next _)

private theorem suffix_skipBrackets (depth : Nat) (before ahead : List Token) :
    before <:+ (skipBrackets depth before ahead).before := by
  fun_induction skipBrackets depth before ahead with
  | case1 => exact List.suffix_rfl
  | case3 => exact List.suffix_cons _ _
  | case2 _ _ _ _ _ ih | case4 _ _ _ _ _ _ _ ih | case5 _ _ _ _ _ _ ih => exact (List.suffix_cons _ _).trans ih

theorem suffix_skipGroup (c : Cursor) : c.before <:+ c.skipGroup.before := suffix_skipBrackets 0 c.before c.ahead

private theorem suffix_attributeTokens (depth : Nat) (found : Bool) (before ahead : List Token) :
    before <:+ (attributeTokens depth found before ahead).2.before := by
  fun_induction attributeTokens depth found before ahead with
  | case1 => exact List.suffix_rfl
  | case3 => exact List.suffix_cons _ _
  | case2 _ _ _ _ _ _ ih | case4 _ _ _ _ _ _ _ _ ih | case5 _ _ _ _ _ _ _ _ ih =>
    exact (List.suffix_cons _ _).trans ih

theorem suffix_attributeSection (c : Cursor) : c.before <:+ c.attributeSection.2.before :=
  suffix_attributeTokens 0 false c.before c.ahead

theorem suffix_skipMany {stride : Stride} (hstep : ∀ {c d : Cursor}, stride.step? c = some d → c.before <:+ d.before)
    (c : Cursor) : c.before <:+ (c.skipMany stride).before := by
  fun_induction skipMany stride c with
  | case1 c d hd ih => exact (hstep hd).trans ih
  | case2 => exact List.suffix_rfl

theorem suffix_nextOrGroup (c : Cursor) : c.before <:+ c.nextOrGroup.before := by
  rw [nextOrGroup]
  split
  · exact c.suffix_skipGroup
  · exact c.suffix_next

theorem suffix_skipUntil (c : Cursor) (stop : Token → Bool) : c.before <:+ (c.skipUntil stop).before := by
  refine suffix_skipMany (fun {c d} h => ?_) c
  simp only [strideUntil] at h
  split at h
  · split at h
    · cases h
    · cases h
      exact c.suffix_nextOrGroup
  · cases h

/-- What is behind a cursor stays behind it, whatever readers of cursors do. -/
theorem lockstep_suffix (base : List Token) : Lockstep Eq fun c d => c = d ∧ base <:+ c.before :=
  .ofInvariant (fun h _ _ => h.trans (suffix_next _)) (fun h _ => h.trans (suffix_skipGroup _))
    (fun h _ => h.trans (suffix_attributeSection _)) (fun h _ _ => h.trans (suffix_skipPast _ _))

theorem suffix_skipAttributes (c : Cursor) : c.before <:+ c.skipAttributes.before :=
  ((lockstep_suffix c.before).skipAttributes ⟨rfl, List.suffix_rfl⟩).2

theorem suffix_skipKeyword (c : Cursor) (word : String) : c.before <:+ (c.skipKeyword word).before :=
  ((lockstep_suffix c.before).skipKeyword ⟨rfl, List.suffix_rfl⟩ word).2

theorem suffix_skipEither (c : Cursor) (word other : String) : c.before <:+ (c.skipEither word other).before :=
  ((lockstep_suffix c.before).skipEither ⟨rfl, List.suffix_rfl⟩ word other).2

theorem suffix_header (c : Cursor) : c.before <:+ (Header.read c).2.before :=
  ((lockstep_suffix c.before).read ⟨rfl, List.suffix_rfl⟩).2.2

theorem suffix_of_type? {isVar : Bool} (h : c.type? = some (isVar, d)) : c.before <:+ d.before :=
  (lockstep_suffix c.before).keeps_type? List.suffix_rfl h

theorem suffix_of_localFunctionName? (h : c.localFunctionName? = some (t, d)) : c.before <:+ d.before :=
  (lockstep_suffix c.before).keeps_localFunctionName? List.suffix_rfl h

theorem suffix_of_localDeclaration? {context : LocalContext} {beginning : LocalBeginning}
    (h : c.localDeclaration? context = some (beginning, d)) : c.before <:+ d.before :=
  (lockstep_suffix c.before).keeps_localDeclaration? List.suffix_rfl h

theorem suffix_qualifiedMember (name : Token) (isExplicit : Bool) (c : Cursor) :
    c.before <:+ (qualifiedMember name isExplicit c).2.before :=
  ((lockstep_suffix c.before).qualifiedMember ⟨rfl, List.suffix_rfl⟩ rfl isExplicit).2.2.2

theorem suffix_of_eat? {mark : String} (h : c.eat? mark = some d) : c.before <:+ d.before := by
  rw [eat?] at h
  split at h
  · cases h
    exact c.suffix_next
  · cases h

theorem suffix_of_eatKeyword? {word : String} (h : c.eatKeyword? word = some d) : c.before <:+ d.before := by
  rw [eatKeyword?] at h
  split at h
  · cases h
    exact c.suffix_next
  · cases h

theorem before_next (h : c.peek? = some t) : c.next.before = t :: c.before := by
  obtain ⟨before, ahead⟩ := c
  cases ahead with
  | nil => cases h
  | cons u ahead =>
    cases h
    rfl

/-- A name is the token that was consumed with it. -/
theorem before_of_name? (h : c.name? = some (t, d)) : d.before = t :: c.before := by
  rw [name?] at h
  split at h
  · split at h
    · cases h
      exact before_next ‹_›
    · cases h
  · cases h

/-! ### Names behind a cursor -/

namespace Covers

theorem name? (h : c.Covers held) (hname : c.name? = some (t, d)) : d.Covers (t :: held) :=
  h.cons (before_of_name? hname)

theorem type? (h : c.Covers held) {isVar : Bool} (htype : c.type? = some (isVar, d)) : d.Covers held :=
  h.mono (suffix_of_type? htype)

/-- The last segment of a qualified name takes the place of the first one. -/
theorem qualifiedMember {name : Token} (h : c.Covers (name :: held)) (isExplicit : Bool) :
    (Cursor.qualifiedMember name isExplicit c).2.Covers ((Cursor.qualifiedMember name isExplicit c).1.1 :: held) := by
  have harguments (c : Cursor) : c.before <:+ c.skipTypeArguments.before :=
    ((lockstep_suffix c.before).skipTypeArguments ⟨rfl, List.suffix_rfl⟩).2
  fun_induction Cursor.qualifiedMember name isExplicit c with
  | case1 name isExplicit c qualifier hdot hnone => exact h
  | case2 name isExplicit c qualifier hdot t ht hname ih =>
    have hdot : qualifier.next.Covers held := (h.tail.mono (harguments c)).mono (suffix_next _)
    refine ih (hdot.cons ?_)
    have hsegment : qualifier.next.name? = some (t, qualifier.next.next) := by
      rw [Cursor.name?, ht]
      exact if_pos hname
    exact before_of_name? hsegment
  | case3 name isExplicit c qualifier hdot t ht hname hthis =>
    exact (h.mono (harguments c)).mono (suffix_next _)
  | case4 | case5 => exact h

theorem localFunctionName? (h : c.Covers held) (hname : c.localFunctionName? = some (t, d)) :
    d.Covers (t :: held) := by
  rw [Cursor.localFunctionName?] at hname
  have hmodifiers := h.mono (c.suffix_skipWhile isFunctionModifier)
  cases htype : (c.skipWhile isFunctionModifier).type? with
  | none =>
    rw [htype] at hname
    cases hname
  | some found =>
    obtain ⟨isVar, e⟩ := found
    cases hnamed : e.name? with
    | none =>
      simp only [htype, hnamed] at hname
      cases hname
    | some found =>
      obtain ⟨u, f⟩ := found
      simp only [htype, hnamed] at hname
      split at hname
      · cases hname
        exact (hmodifiers.type? htype).name? hnamed
      · cases hname

/-! ### Patterns -/

theorem ofName {usesVar : Bool} (h : c.Covers (t :: held)) :
    c.Covers ((Declarator.ofName t usesVar).map (·.token) ++ held) := by
  rw [Declarator.ofName]
  split
  · exact h.tail
  · exact h

theorem element {usesVar : Bool} {names : List Declarator} (h : c.Covers held)
    (helement : Declarator.element usesVar c = (some names, d)) : d.Covers (names.map (·.token) ++ held) := by
  rw [Declarator.element] at helement
  split at helement
  · split at helement
    · cases helement
      exact (h.name? ‹_›).ofName
    · cases helement
  · split at helement
    · cases helement
    · split at helement
      · cases helement
        exact ((h.type? ‹_›).name? ‹_›).ofName
      · cases helement

private theorem elements_and_closePatterns (usesVar : Bool) (n : Nat) :
    (∀ {outer : Nat} {names names' : List Declarator} {c d : Cursor}, c.size < n →
      c.Covers (names.map (·.token) ++ held) → Declarator.elements usesVar outer names c = (some names', d) →
      d.Covers (names'.map (·.token) ++ held)) ∧
    ∀ {outer : Nat} {names names' : List Declarator} {c d : Cursor}, c.size < n →
      c.Covers (names.map (·.token) ++ held) → Declarator.closePatterns usesVar outer names c = (some names', d) →
      d.Covers (names'.map (·.token) ++ held) := by
  induction n with
  | zero => exact ⟨fun h => absurd h (Nat.not_lt_zero _), fun h => absurd h (Nat.not_lt_zero _)⟩
  | succ n ih =>
    obtain ⟨helements, hclose⟩ := ih
    constructor
    · intro outer names names' c d hn h heq
      rw [Declarator.elements_eq] at heq
      cases hparen : c.eat? "(" with
      | some inner =>
        have hlt := size_of_eat? hparen
        rw [hparen] at heq
        exact helements (by omega) (h.mono (suffix_of_eat? hparen)) heq
      | none =>
        rw [hparen] at heq
        cases helement : Declarator.element usesVar c with
        | mk found e =>
          rw [helement] at heq
          cases found with
          | none => cases heq
          | some more =>
            have hlt := Declarator.size_element_lt helement
            refine hclose (by omega) ((h.element helement).perm ?_) heq
            rw [List.map_append, List.append_assoc]
            exact List.perm_append_comm_assoc _ _ _
    · intro outer names names' c d hn h heq
      rw [Declarator.closePatterns_eq] at heq
      cases hcomma : c.eat? "," with
      | some behind =>
        have hlt := size_of_eat? hcomma
        rw [hcomma] at heq
        exact helements (by omega) (h.mono (suffix_of_eat? hcomma)) heq
      | none =>
        rw [hcomma] at heq
        cases hparen : c.eat? ")" with
        | none =>
          rw [hparen] at heq
          cases heq
        | some behind =>
          have hlt := size_of_eat? hparen
          have hbehind := h.mono (suffix_of_eat? hparen)
          rw [hparen] at heq
          cases outer with
          | zero =>
            cases heq
            exact hbehind
          | succ outer => exact hclose (by omega) hbehind heq

/-- The names of a pattern were consumed one by one. -/
theorem pattern {usesVar : Bool} {names : List Declarator} (h : c.Covers held)
    (hpattern : Declarator.pattern usesVar c = (some names, d)) : d.Covers (names.map (·.token) ++ held) := by
  rw [Declarator.pattern] at hpattern
  cases hparen : c.eat? "(" with
  | none =>
    rw [hparen] at hpattern
    cases hpattern
  | some inner =>
    rw [hparen] at hpattern
    have hinner : inner.Covers (([] : List Declarator).map (·.token) ++ held) := h.mono (suffix_of_eat? hparen)
    exact (elements_and_closePatterns usesVar (inner.size + 1)).1 (Nat.lt_succ_self _) hinner hpattern

end Covers

end Cursor

/-- The names that were read with the beginning of a local declaration. -/
def LocalBeginning.tokens : LocalBeginning → List Token
  | .pattern names => names.map (·.token)
  | .type _ => []

namespace Cursor.Covers

variable {c d : Cursor} {held : List Token}

private theorem deconstruction? {usesVar : Bool} {beginning : LocalBeginning} (h : c.Covers held)
    (hbeginning : c.deconstruction? usesVar = some (beginning, d)) : d.Covers (beginning.tokens ++ held) := by
  rw [Cursor.deconstruction?] at hbeginning
  cases hpattern : Declarator.pattern usesVar c with
  | mk found e =>
    rw [hpattern] at hbeginning
    cases found with
    | none => cases hbeginning
    | some names =>
      obtain ⟨behind, hbehind, heq⟩ := Option.map_eq_some_iff.mp hbeginning
      cases heq
      exact (h.pattern hpattern).mono (suffix_of_eat? hbehind)

theorem localDeclaration? {context : LocalContext} {beginning : LocalBeginning} (h : c.Covers held)
    (hbeginning : c.localDeclaration? context = some (beginning, d)) : d.Covers (beginning.tokens ++ held) := by
  rw [Cursor.localDeclaration?] at hbeginning
  have hmodifiers := h.mono (c.suffix_skipWhile isLocalModifier)
  split at hbeginning
  · exact (hmodifiers.mono (suffix_next _)).deconstruction? hbeginning
  · split at hbeginning
    · exact hmodifiers.deconstruction? hbeginning
    · rw [declaredType?] at hbeginning
      split at hbeginning
      · cases hbeginning
      · simp only at hbeginning
        split at hbeginning
        · cases hbeginning
          exact hmodifiers.type? ‹_›
        · cases hbeginning

theorem suffix_iterationVariables (c : Cursor) : c.before <:+ (Reading.iterationVariables c).2.before :=
  ((lockstep_suffix c.before).iterationVariables ⟨rfl, List.suffix_rfl⟩).2.2

/-- The variables of a `foreach` loop were consumed one by one. -/
theorem iterationVariables {names : List Declarator} (h : c.Covers held)
    (hnames : Reading.iterationVariables c = (some names, d)) : d.Covers (names.map (·.token) ++ held) := by
  rw [Reading.iterationVariables] at hnames
  have hmodifiers : ((c.eatKeyword? "ref").elim c (·.skipKeyword "readonly")).Covers held := by
    cases href : c.eatKeyword? "ref" with
    | none => exact h
    | some behind => exact (h.mono (suffix_of_eatKeyword? href)).mono (behind.suffix_skipKeyword "readonly")
  generalize (c.eatKeyword? "ref").elim c (·.skipKeyword "readonly") = e at hmodifiers hnames
  split at hnames
  · exact (hmodifiers.mono (suffix_next _)).pattern hnames
  · split at hnames
    · exact hmodifiers.pattern hnames
    · split at hnames
      · cases hnames
      · split at hnames
        · cases hnames
          exact (hmodifiers.type? ‹_›).name? ‹_›
        · cases hnames

end Cursor.Covers

end CSharpStyle
