import CSharpStyle.Grammar.Reading

/-!
# Attempts at type references

A type reference can also be read by attempts on one reading that all of them move. An attempt that fails has moved on
by then, and has to go back to where it began by itself. Tuples are read inside types, and types inside tuples, so that
a failure can come from any depth.

* `Backtracking.type_eq`: an attempt at a type reference either reads what `Reading.type?` reads, or leaves the reading
  as it was.
-/

namespace CSharpStyle

namespace Reading

/-- Goes back to where `start` stands. What was recorded in between stays recorded. -/
def backTo (s start : Reading) : Reading := { s with cursor := start.cursor }

/-- What an attempt gives that goes on with what `found` holds, or else fails and leaves `s` as it was. -/
def outcome {α β : Type} (s : Reading) (failed : β) (found : Option α) (next : α → β × Reading) : β × Reading :=
  found.elim (failed, s) next

theorem outcome_of_failed {α β : Type} {s : Reading} {failed : β} {found : Option α} {next : α → β × Reading}
    (hnext : ∀ a, (next a).1 ≠ failed) (h : (s.outcome failed found next).1 = failed) :
    (s.outcome failed found next).2 = s := by
  cases found with
  | none => rfl
  | some a => exact absurd h (hnext a)

end Reading

namespace Cursor

/-! ### Types inside tuples -/

/-- A type inside one more tuple is read like a type, and then the tuple around it is read to its end. The induction is
that of the reader, with one statement for each of its functions. -/
theorem typeInside_succ (depth : Nat) (c : Cursor) :
    typeInside (depth + 1) c = (typeInside depth c).bind (closeTuples 1) := by
  refine typeInside.induct (fun depth c => typeInside (depth + 1) c = (typeInside depth c).bind (closeTuples 1))
    (fun depth c => closeTuples (depth + 1) c = (closeTuples depth c).bind (closeTuples 1))
    ?nothing ?tuple ?name ?other ?closed ?comma ?closing ?unclosed depth c
  case nothing =>
    intro depth c hpeek
    rw [typeInside_eq (depth + 1) c, typeInside_eq depth c, hpeek]
    rfl
  case tuple =>
    intro depth c t hpeek hparen ih
    simp only [typeInside_eq (depth + 1) c, typeInside_eq depth c, hpeek, if_pos hparen]
    exact ih
  case name =>
    intro depth c t hpeek hparen hname ih
    simp only [typeInside_eq (depth + 1) c, typeInside_eq depth c, hpeek, if_neg hparen, if_pos hname]
    exact ih
  case other =>
    intro depth c t hpeek hparen hname
    simp only [typeInside_eq (depth + 1) c, typeInside_eq depth c, hpeek, if_neg hparen, if_neg hname, Option.bind_none]
  case closed =>
    intro c
    rw [closeTuples_zero, Option.bind_some]
  case comma =>
    intro c outer d hcomma ih
    simp only [closeTuples_succ (outer + 1) c, closeTuples_succ outer c, hcomma]
    exact ih
  case closing =>
    intro c outer hcomma d hparen ih
    simp only [closeTuples_succ (outer + 1) c, closeTuples_succ outer c, hcomma, hparen]
    exact ih
  case unclosed =>
    intro c outer hcomma hparen
    simp only [closeTuples_succ (outer + 1) c, closeTuples_succ outer c, hcomma, hparen, Option.bind_none]

theorem size_typeArguments?_lt {c d : Cursor} (h : c.typeArguments? = some d) : d.size < c.size := by
  unfold typeArguments? at h
  split at h
  · rename_i inner heat
    have hinner := size_of_eat? heat
    have hclose : d.size < inner.size := size_closeTypeArguments_lt h
    omega
  · cases h

/-- A qualified name has a single word if nothing is left to read behind that. -/
theorem size_qualifiedNameRest_eq_iff {c : Cursor} :
    c.qualifiedNameRest.size = c.size ↔ c.typeArguments? = none ∧ c.seesQualifier = false := by
  rw [qualifiedNameRest]
  cases harguments : c.typeArguments? with
  | some d =>
    have hnamed : c.skipTypeArguments = d := by rw [skipTypeArguments, harguments, Option.getD_some]
    have hlt := size_typeArguments?_lt harguments
    refine iff_of_false ?_ (by simp)
    simp only [hnamed]
    split
    · rename_i hqualifier
      have hnext := size_next_next_lt hqualifier
      have hrest := size_qualifiedNameRest_le d.next.next
      omega
    · omega
  | none =>
    have hnamed : c.skipTypeArguments = c := by rw [skipTypeArguments, harguments, Option.getD_none]
    simp only [hnamed, true_and]
    split
    · rename_i hqualifier
      have hnext := size_next_next_lt hqualifier
      have hrest := size_qualifiedNameRest_le c.next.next
      refine iff_of_false (by omega) (by simp [hqualifier])
    · rename_i hqualifier
      simpa using hqualifier

end Cursor

namespace Reading

/-! ### Type arguments -/

/-- Consumes tokens up to the `>` that closes the innermost of `depth` open argument lists and all around it, or up to
the first token that cannot stand among type arguments, which is consumed as well. -/
def scanTypeArguments : Nat → List Token → List Token → Bool × Cursor
  | _, before, [] => (false, ⟨before, []⟩)
  | depth, before, t :: ahead =>
    if t.isPunctuation "<" then scanTypeArguments (depth + 1) (t :: before) ahead
    else if t.isPunctuation ">" then
      if depth ≤ 1 then (true, ⟨t :: before, ahead⟩) else scanTypeArguments (depth - 1) (t :: before) ahead
    else if Cursor.isTypeArgumentToken t then scanTypeArguments depth (t :: before) ahead
    else (false, ⟨t :: before, ahead⟩)

/-- Consumes type arguments `<…>` if they are well-formed. -/
def tryTypeArguments (s : Reading) : Bool × Reading :=
  match s.eat? "<" with
  | none => (false, s)
  | some t =>
    match scanTypeArguments 1 t.cursor.before t.cursor.ahead with
    | (true, c) => (true, t.move fun _ => c)
    | (false, c) => (false, (t.move fun _ => c).backTo s)

theorem scanTypeArguments_cases (depth : Nat) (before ahead : List Token) :
    (∃ c, Cursor.closeTypeArguments depth before ahead = some c ∧ scanTypeArguments depth before ahead = (true, c)) ∨
      Cursor.closeTypeArguments depth before ahead = none ∧ (scanTypeArguments depth before ahead).1 = false := by
  fun_induction scanTypeArguments depth before ahead with
  | case4 depth before t ahead hopens hcloses hdepth ih =>
    rw [Cursor.closeTypeArguments, if_neg hopens, if_pos hcloses, if_neg hdepth]
    exact ih
  | _ => simp_all [Cursor.closeTypeArguments]

theorem tryTypeArguments_eq (s : Reading) :
    s.tryTypeArguments = s.outcome false s.cursor.typeArguments? fun c => (true, s.move fun _ => c) := by
  rw [tryTypeArguments, eat?, Cursor.typeArguments?]
  cases s.cursor.eat? "<" with
  | none => rfl
  | some inner =>
    obtain ⟨c, hclose, hscan⟩ | ⟨hclose, hscan⟩ := scanTypeArguments_cases 1 inner.before inner.ahead
    · simp only [Option.map_some, hclose, hscan, move]
      rfl
    · obtain ⟨c, hc⟩ : ∃ c, scanTypeArguments 1 inner.before inner.ahead = (false, c) := ⟨_, Prod.ext hscan rfl⟩
      simp only [Option.map_some, hclose, hc, move, backTo]
      rfl

/-- One more segment of a qualified name. -/
def nameRound (s : Reading) : Round Reading Reading :=
  let t := s.tryTypeArguments.2
  if t.cursor.seesQualifier then .again t.next.next else .done t

/-- Reads the rest of a qualified name. -/
def nameRest (s : Reading) : Reading := rounds size nameRound stall s

theorem snd_tryTypeArguments (s : Reading) : s.tryTypeArguments.2 = s.move .skipTypeArguments := by
  rw [tryTypeArguments_eq, move, Cursor.skipTypeArguments]
  cases s.cursor.typeArguments? <;> rfl

theorem nameRest_eq (s : Reading) : s.nameRest = s.move .qualifiedNameRest := by
  rw [move]
  generalize hc : s.cursor = c
  fun_induction Cursor.qualifiedNameRest c generalizing s with
  | case1 c named hqualifier ih =>
    have hround : nameRound s = .again (s.move fun _ => named.next.next) := by
      rw [nameRound, snd_tryTypeArguments]
      subst hc
      exact if_pos hqualifier
    have hsize : (s.move fun _ => named.next.next).size < s.size := by
      have hnamed : named.size ≤ c.size := Cursor.size_skipTypeArguments_le c
      have hnext : named.next.next.size < named.size := Cursor.size_next_next_lt hqualifier
      rw [size, size, hc]
      exact Nat.lt_of_lt_of_le hnext hnamed
    exact (rounds_of_again hround hsize).trans (ih (s.move fun _ => named.next.next) rfl)
  | case2 c named hqualifier =>
    have hround : nameRound s = .done (s.move fun _ => named) := by
      rw [nameRound, snd_tryTypeArguments]
      subst hc
      exact if_neg hqualifier
    exact rounds_of_done hround

/-! ### Types and tuples -/

section

variable (inner : Reading → Option Bool × Reading)

/-- One more element of a tuple and the mark behind it. -/
def tupleRound (s : Reading) : Round Reading (Bool × Reading) :=
  match inner s with
  | (none, t) => .done (false, t)
  | (some _, t) =>
    let t := t.move .skipName
    match t.eat? "," with
    | some t => .again t
    | none =>
      match t.eat? ")" with
      | some t => .done (true, t)
      | none => .done (false, t)

/-- Reads a tuple of types from its parenthesis on. -/
def tryTuple (s : Reading) : Bool × Reading := rounds size (tupleRound inner) (fun t => (false, t.stall)) s.next

/-- Reads a type whose elements `inner` reads. The place alone tells whether it is the bare word `var`. -/
def tryTypeWith (s : Reading) : Option Bool × Reading :=
  match s.peek? with
  | none => (none, s)
  | some t =>
    let finished (u : Reading) : Option Bool × Reading :=
      (some (t.text == "var" && u.size + 1 == s.size), u.move .skipSuffixes)
    if t.isPunctuation "(" then
      match tryTuple inner s with
      | (true, u) => finished u
      | (false, u) => (none, u.backTo s)
    else if t.isName || t.isBuiltInType then finished s.next.nameRest
    else (none, s)

end

/-- Reads a type reference. -/
def tryType (s : Reading) : Option Bool × Reading :=
  tryTypeWith (fun t => if t.size < s.size then tryType t else (none, t.stall)) s
termination_by s.size

theorem type?_cases (s : Reading) :
    (s.cursor.typeInside 0 = none ∧ s.type? = none) ∨
      ∃ isVar c, s.cursor.typeInside 0 = some c ∧ s.type? = some (isVar, s.move fun _ => c) := by
  rw [type?, Cursor.type?]
  cases s.cursor.typeInside 0 with
  | none => exact .inl ⟨rfl, rfl⟩
  | some c => exact .inr ⟨_, c, rfl, rfl⟩

/-- The elements of a tuple and its end are read as `Cursor.typeInside` reads them. A tuple that is malformed has moved
the reading and nothing else. -/
theorem rounds_tupleRound {inner : Reading → Option Bool × Reading} {n : Nat}
    (hinner : ∀ t : Reading, t.size < n → inner t = t.outcome none t.type? fun (isVar, u) => (some isVar, u))
    {s : Reading} (hn : s.size < n) :
    ∃ c, (rounds size (tupleRound inner) (fun t => (false, t.stall)) s).2 = s.move (fun _ => c) ∧
      s.cursor.typeInside 1 =
        if (rounds size (tupleRound inner) (fun t => (false, t.stall)) s).1 then some c.skipSuffixes else none := by
  induction h : s.size using Nat.strongRecOn generalizing s with
  | ind m ih =>
    subst h
    -- The count of open tuples is one here, and the first element of the tuple is read with none.
    have hinside : s.cursor.typeInside 1 = (s.cursor.typeInside 0).bind (Cursor.closeTuples 1) :=
      Cursor.typeInside_succ 0 s.cursor
    obtain ⟨htype, htype'⟩ | ⟨isVar, c, htype, htype'⟩ := s.type?_cases
    · have hround : tupleRound inner s = .done (false, s) := by
        rw [tupleRound, hinner s hn, htype']
        rfl
      rw [rounds_of_done hround, hinside, htype]
      exact ⟨s.cursor, rfl, rfl⟩
    · have hread : inner s = (some isVar, s.move fun _ => c) := by
        rw [hinner s hn, htype']
        rfl
      have hsize : c.size < s.size := Cursor.size_typeInside_lt htype
      have hskip : c.skipName.size ≤ c.size := Cursor.size_skipName_le c
      rw [hinside, htype, Option.bind_some, Cursor.closeTuples_succ]
      cases hcomma : c.skipName.eat? "," with
      | some d =>
        have hlt := Cursor.size_of_eat? hcomma
        have hround : tupleRound inner s = .again (s.move fun _ => d) := by
          simp [tupleRound, hread, eat?, move, hcomma]
        rw [rounds_of_again hround (by simp only [size, move] at *; omega)]
        obtain ⟨e, he, hbehind⟩ := ih d.size (by simp only [size] at *; omega) (s := s.move fun _ => d)
          (by simp only [size, move] at *; omega) rfl
        exact ⟨e, he, hbehind⟩
      | none =>
        cases hparen : c.skipName.eat? ")" with
        | some d =>
          have hround : tupleRound inner s = .done (true, s.move fun _ => d) := by
            simp [tupleRound, hread, eat?, move, hcomma, hparen]
          rw [rounds_of_done hround]
          exact ⟨d, rfl, Cursor.closeTuples_zero _⟩
        | none =>
          have hround : tupleRound inner s = .done (false, s.move fun _ => c.skipName) := by
            simp [tupleRound, hread, eat?, move, hcomma, hparen]
          rw [rounds_of_done hround]
          exact ⟨c.skipName, rfl, rfl⟩

theorem type?_of_typeInside {s : Reading} {c : Cursor} {isVar : Bool} (hinside : s.cursor.typeInside 0 = some c)
    (hvar : isVar = (s.cursor.peek?.any (·.text == "var") && s.cursor.next.typeArguments?.isNone &&
      !s.cursor.next.seesQualifier)) : s.type? = some (isVar, s.move fun _ => c) := by
  rw [type?, Cursor.type?, hinside, hvar]
  rfl

theorem type?_of_typeInside_eq_none {s : Reading} (hinside : s.cursor.typeInside 0 = none) : s.type? = none := by
  rw [type?, Cursor.type?, hinside]
  rfl

/-- The place behind a name tells whether it was a single word. -/
theorem size_qualifiedNameRest_next {s : Reading} (h : s.cursor.ahead ≠ []) :
    ((s.next.move .qualifiedNameRest).size + 1 == s.size) =
      (s.cursor.next.typeArguments?.isNone && !s.cursor.next.seesQualifier) := by
  have hsize : s.cursor.next.size + 1 = s.size := by
    have hpos := List.length_pos_iff.mpr h
    simp only [size, Cursor.size, Cursor.next, List.length_tail]
    omega
  have hiff : s.cursor.next.qualifiedNameRest.size + 1 = s.size ↔
      s.cursor.next.typeArguments? = none ∧ s.cursor.next.seesQualifier = false := by
    rw [← hsize, Nat.add_right_cancel_iff, Cursor.size_qualifiedNameRest_eq_iff]
  rw [Bool.eq_iff_iff, beq_iff_eq, Bool.and_eq_true, Option.isNone_iff_eq_none, Bool.not_eq_true']
  exact hiff

section

variable {inner : Reading → Option Bool × Reading} {s : Reading} {t : Token}

/-- A type that begins with a parenthesis is a tuple, and none if that is malformed. -/
theorem tryTypeWith_of_tuple
    (hinner : ∀ u : Reading, u.size < s.size → inner u = u.outcome none u.type? fun (isVar, v) => (some isVar, v))
    (hpeek : s.cursor.peek? = some t) (hparen : t.isPunctuation "(") :
    tryTypeWith inner s = s.outcome none s.type? fun (isVar, u) => (some isVar, u) := by
  have hinside : s.cursor.typeInside 0 = s.cursor.next.typeInside 1 := by
    rw [Cursor.typeInside_eq, hpeek]
    exact if_pos hparen
  have hnext : s.next.size < s.size := Cursor.size_next_lt (Cursor.ahead_ne_nil_of_peek? hpeek)
  have hvar : (t.text == "var") = false := by
    rw [eq_of_beq (Bool.and_eq_true_iff.mp hparen).2]
    rfl
  -- Whatever the rounds have come to, they have only moved, and going back undoes that.
  obtain ⟨c, hc, hbehind⟩ := rounds_tupleRound hinner hnext
  simp only [tryTypeWith, peek?, hpeek, hparen, if_true]
  cases hread : tryTuple inner s with
  | mk closed u =>
    rw [tryTuple] at hread
    rw [hread] at hc hbehind
    subst hc
    cases closed with
    | true =>
      have htype : s.type? = some (false, s.move fun _ => c.skipSuffixes) :=
        type?_of_typeInside (hinside.trans hbehind) (by simp [hpeek, hvar])
      rw [htype, hvar]
      rfl
    | false =>
      rw [type?_of_typeInside_eq_none (hinside.trans hbehind)]
      rfl

/-- A type that begins with a name is a qualified one, and what is behind the name tells whether it is the word `var`
alone. -/
theorem tryTypeWith_of_name (hpeek : s.cursor.peek? = some t) (hparen : ¬t.isPunctuation "(")
    (hname : t.isName || t.isBuiltInType) :
    tryTypeWith inner s = s.outcome none s.type? fun (isVar, u) => (some isVar, u) := by
  have hinside : s.cursor.typeInside 0 = some s.cursor.next.qualifiedNameRest.skipSuffixes := by
    rw [Cursor.typeInside_eq, hpeek]
    simp only [hparen, hname, Bool.false_eq_true, if_false, if_true, Cursor.closeTuples_zero]
  simp only [tryTypeWith, peek?, hpeek, hparen, hname, Bool.false_eq_true, if_false, if_true]
  rw [type?_of_typeInside hinside rfl, nameRest_eq, size_qualifiedNameRest_next (Cursor.ahead_ne_nil_of_peek? hpeek),
    ← Bool.and_assoc, hpeek]
  rfl

end

/-- An attempt at a type reference reads what `type?` reads. When there is none, it leaves the reading as it was. -/
theorem tryType_eq (s : Reading) : s.tryType = s.outcome none s.type? fun (isVar, t) => (some isVar, t) := by
  -- Only tuples are read by further attempts, and those have fewer tokens ahead.
  induction h : s.size using Nat.strongRecOn generalizing s with
  | ind n ih =>
    subst h
    have hinner : ∀ t : Reading, t.size < s.size →
        (if t.size < s.size then tryType t else (none, t.stall)) =
          t.outcome none t.type? fun (isVar, u) => (some isVar, u) :=
      fun t ht => (if_pos ht).trans (ih t.size ht t rfl)
    have hinside := Cursor.typeInside_eq 0 s.cursor
    rw [tryType]
    cases hpeek : s.cursor.peek? with
    | none =>
      rw [hpeek] at hinside
      rw [tryTypeWith, peek?, hpeek, type?_of_typeInside_eq_none hinside]
      rfl
    | some t =>
      simp only [hpeek] at hinside
      by_cases hparen : t.isPunctuation "("
      · exact tryTypeWith_of_tuple hinner hpeek hparen
      · by_cases hname : t.isName || t.isBuiltInType
        · exact tryTypeWith_of_name hpeek hparen hname
        · rw [if_neg hparen, if_neg hname] at hinside
          simp only [tryTypeWith, peek?, hpeek, hparen, hname, Bool.false_eq_true, if_false]
          rw [type?_of_typeInside_eq_none hinside]
          rfl

end Reading

end CSharpStyle
