import CSharpStyle.Grammar.Cursor

/-!
# Type references

A type reference is a tuple of types or a name with type arguments and qualifiers, followed by any number of
`?`, `*` and array ranks. Readers return the cursor behind it, or nothing when no type reference begins here.
-/

namespace CSharpStyle.Cursor

/-- What may stand between the angle brackets of type arguments, other than further angle brackets. -/
def isTypeArgumentToken (t : Token) : Bool :=
  match t.kind with
  | .identifier => true
  | .keyword => Keyword.isBuiltInType t.text || Keyword.isContextual t.text
  | .punctuation => [",", ".", "::", "?", "[", "]", "(", ")", "*"].contains t.text
  | _ => false

/-- Reads up to the `>` that closes the innermost of `depth` open argument lists and all around it. -/
def closeTypeArguments : Nat → List Token → List Token → Option Cursor
  | _, _, [] => none
  | depth, before, t :: ahead =>
    if t.isPunctuation "<" then closeTypeArguments (depth + 1) (t :: before) ahead
    else if t.isPunctuation ">" then
      if depth ≤ 1 then some ⟨t :: before, ahead⟩ else closeTypeArguments (depth - 1) (t :: before) ahead
    else if isTypeArgumentToken t then closeTypeArguments depth (t :: before) ahead
    else none

/-- The cursor behind type arguments `<…>`. -/
def typeArguments? (c : Cursor) : Option Cursor :=
  match c.eat? "<" with
  | some inner => closeTypeArguments 1 inner.before inner.ahead
  | none => none

def skipTypeArguments (c : Cursor) : Cursor := c.typeArguments?.getD c

/-- A qualifier mark and a name behind it. -/
def seesQualifier (c : Cursor) : Bool :=
  (c.sees "." || c.sees "::") && c.second?.any (·.isName)

theorem size_closeTypeArguments_lt {depth : Nat} {before ahead : List Token} {c : Cursor}
    (h : closeTypeArguments depth before ahead = some c) : c.size < ahead.length := by
  fun_induction closeTypeArguments depth before ahead with
  | case1 | case6 => simp at h
  | case3 => cases h; simp [size]
  | case2 _ _ _ _ _ ih | case4 _ _ _ _ _ _ _ ih | case5 _ _ _ _ _ _ _ ih => exact Nat.lt_succ_of_lt (ih h)

theorem size_skipTypeArguments_le (c : Cursor) : c.skipTypeArguments.size ≤ c.size := by
  unfold skipTypeArguments typeArguments? eat?
  split
  · rename_i inner heat
    obtain ⟨-, heq⟩ := Option.ite_none_right_eq_some.mp heat
    cases heq
    cases hclose : closeTypeArguments 1 c.next.before c.next.ahead with
    | none => exact Nat.le_refl _
    | some d =>
      have := size_closeTypeArguments_lt hclose
      simp only [Option.getD_some, size, next, List.length_tail] at this ⊢
      omega
  · exact Nat.le_refl _

theorem size_next_next_lt {c : Cursor} (h : c.seesQualifier) : c.next.next.size < c.size := by
  obtain ⟨before, _ | ⟨t, ahead⟩⟩ := c
  · simp [seesQualifier, sees, peek?] at h
  · simp only [next, size, List.tail_cons, List.length_tail, List.length_cons]
    omega

/-- Reads the rest of a qualified name, with the type arguments of its segments. -/
def qualifiedNameRest (c : Cursor) : Cursor :=
  let named := c.skipTypeArguments
  if named.seesQualifier then qualifiedNameRest named.next.next else named
termination_by c.size
decreasing_by exact Nat.lt_of_lt_of_le (size_next_next_lt ‹_›) (size_skipTypeArguments_le c)

theorem size_qualifiedNameRest_le (c : Cursor) : c.qualifiedNameRest.size ≤ c.size := by
  fun_induction qualifiedNameRest c with
  | case1 c named hqualifier ih =>
    have hnamed : named.size ≤ c.size := size_skipTypeArguments_le c
    exact Nat.le_trans ih (Nat.le_trans (Nat.le_of_lt (size_next_next_lt hqualifier)) hnamed)
  | case2 c => exact size_skipTypeArguments_le c

/-- A nullable or pointer mark, or an array rank. -/
def typeSuffix? (c : Cursor) : Option Cursor :=
  if c.sees "?" || c.sees "*" then some c.next
  else if c.sees "[" && (c.seesSecond "]" || c.seesSecond ",") then some (c.skipPast "]")
  else none

def suffixStride : Stride where
  step? := typeSuffix?
  consumes {c d} h := by
    unfold typeSuffix? at h
    split at h
    · rename_i hsees
      cases h
      rcases Bool.or_eq_true_iff.mp hsees with hsees | hsees <;> exact size_next_lt (ahead_ne_nil_of_sees hsees)
    · split at h
      · rename_i hsees
        cases h
        exact size_skipPast_lt (ahead_ne_nil_of_sees (Bool.and_eq_true_iff.mp hsees).1)
      · simp at h

def skipSuffixes (c : Cursor) : Cursor := c.skipMany suffixStride

theorem size_skipMany_le (stride : Stride) (c : Cursor) : (c.skipMany stride).size ≤ c.size := by
  fun_induction skipMany stride c with
  | case1 c d hstep ih => exact Nat.le_trans ih (Nat.le_of_lt (stride.consumes hstep))
  | case2 => exact Nat.le_refl _

mutual

/-- Reads a type inside `depth` tuples, and the rest of these tuples with the suffixes behind them. -/
def typeInside (depth : Nat) (c : Cursor) : Option Cursor :=
  match _h : c.peek? with
  | none => none
  | some t =>
    if t.isPunctuation "(" then typeInside (depth + 1) c.next
    else if t.isName || t.isBuiltInType then closeTuples depth c.next.qualifiedNameRest.skipSuffixes
    else none
termination_by 2 * c.size
decreasing_by
  · have := size_next_lt (ahead_ne_nil_of_peek? ‹_›)
    omega
  · have := size_next_lt (ahead_ne_nil_of_peek? ‹_›)
    have := size_qualifiedNameRest_le c.next
    have : c.next.qualifiedNameRest.skipSuffixes.size ≤ c.next.qualifiedNameRest.size := size_skipMany_le _ _
    omega

/-- Reads on behind an element of the innermost of `depth` tuples. An element may have a name. -/
def closeTuples (depth : Nat) (c : Cursor) : Option Cursor :=
  match depth with
  | 0 => some c
  | outer + 1 =>
    match _h : c.skipName.eat? "," with
    | some d => typeInside (outer + 1) d
    | none =>
      match _h : c.skipName.eat? ")" with
      | some d => closeTuples outer d.skipSuffixes
      | none => none
termination_by 2 * c.size + 1
decreasing_by
  · have := size_of_eat? ‹_›
    have := size_skipName_le c
    omega
  · have := size_of_eat? ‹c.skipName.eat? ")" = _›
    have := size_skipName_le c
    have : d.skipSuffixes.size ≤ d.size := size_skipMany_le _ _
    omega

end

theorem typeInside_eq (depth : Nat) (c : Cursor) :
    typeInside depth c =
      match c.peek? with
      | none => none
      | some t =>
        if t.isPunctuation "(" then typeInside (depth + 1) c.next
        else if t.isName || t.isBuiltInType then closeTuples depth c.next.qualifiedNameRest.skipSuffixes
        else none := by
  rw [typeInside]
  split <;> simp_all

theorem closeTuples_succ (outer : Nat) (c : Cursor) :
    closeTuples (outer + 1) c =
      match c.skipName.eat? "," with
      | some d => typeInside (outer + 1) d
      | none =>
        match c.skipName.eat? ")" with
        | some d => closeTuples outer d.skipSuffixes
        | none => none := by
  rw [closeTuples]
  split
  · simp_all
  · split <;> simp_all

theorem closeTuples_zero (c : Cursor) : closeTuples 0 c = some c := by rw [closeTuples]

private theorem size_typeInside_lt_and_closeTuples_le (n : Nat) :
    (∀ {depth : Nat} {c d : Cursor}, c.size < n → typeInside depth c = some d → d.size < c.size) ∧
      ∀ {depth : Nat} {c d : Cursor}, c.size < n → closeTuples depth c = some d → d.size ≤ c.size := by
  induction n with
  | zero => exact ⟨fun h => absurd h (Nat.not_lt_zero _), fun h => absurd h (Nat.not_lt_zero _)⟩
  | succ n ih =>
    obtain ⟨hinside, hclose⟩ := ih
    refine ⟨fun {depth c d} hn h => ?_, fun {depth c d} hn h => ?_⟩
    · rw [typeInside] at h
      split at h
      · simp at h
      · rename_i t ht
        have hnext := size_next_lt (ahead_ne_nil_of_peek? ht)
        have hname := size_qualifiedNameRest_le c.next
        have hsuffixes : c.next.qualifiedNameRest.skipSuffixes.size ≤ c.next.qualifiedNameRest.size :=
          size_skipMany_le _ _
        split at h
        · have := hinside (by omega) h
          omega
        · split at h
          · have := hclose (by omega) h
            omega
          · simp at h
    · rw [closeTuples.eq_def] at h
      have hskip := size_skipName_le c
      split at h
      · cases h
        exact Nat.le_refl _
      · split at h
        · rename_i behind hcomma
          have hcomma := size_of_eat? hcomma
          have := hinside (by omega) h
          omega
        · split at h
          · rename_i behind hparen
            have hparen := size_of_eat? hparen
            have hsuffixes : behind.skipSuffixes.size ≤ behind.size := size_skipMany_le _ _
            have := hclose (by omega) h
            omega
          · simp at h

/-- A type has at least one token. -/
theorem size_typeInside_lt {depth : Nat} {c d : Cursor} (h : typeInside depth c = some d) : d.size < c.size :=
  (size_typeInside_lt_and_closeTuples_le (c.size + 1)).1 (Nat.lt_succ_self _) h

/-- The cursor behind a type reference, and whether the type is the bare word `var`, which may have
suffixes. -/
def type? (c : Cursor) : Option (Bool × Cursor) :=
  let isBareVar :=
    c.peek?.any (·.text == "var") && c.next.typeArguments?.isNone && !c.next.seesQualifier
  (c.typeInside 0).map fun behind => (isBareVar, behind)

theorem size_of_type? {c d : Cursor} {isVar : Bool} (h : c.type? = some (isVar, d)) : d.size < c.size := by
  obtain ⟨behind, hinside, heq⟩ := Option.map_eq_some_iff.mp h
  cases heq
  exact size_typeInside_lt hinside

end CSharpStyle.Cursor
