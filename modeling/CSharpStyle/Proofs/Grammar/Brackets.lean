import CSharpStyle.Grammar.Expression
import CSharpStyle.Proofs.Correspondence.Cursor

/-!
# Nested brackets

Text is properly nested if each bracket in it is closed by one of its kind. Any rest of such text still closes the
brackets that it opens, and may close some that were opened in front of it.

* `Token.unmatched`: the closers in a text that close nothing in it, or `none` if a bracket is not closed.
* `Token.outermost`: the tokens of a text outside all brackets.
* `Reading.skipExpression_plain`: an expression extends over all of a properly nested text, up to a stop mark outside
  its brackets.
-/

namespace CSharpStyle

namespace Token

theorem isCloser_eq_false {t : Token} (h : t.isOpener) : t.isCloser = false := by
  simp only [isOpener, isCloser, Bool.and_eq_true, Bool.or_eq_true, beq_iff_eq] at h ⊢
  obtain ⟨-, (htext | htext) | htext⟩ := h <;> simp [htext]

/-- The closers left when the first one has matched the opener `opener`. -/
def close? (opener : String) : List String → Option (List String)
  | [] => none
  | closer :: outer => if closer = closing opener then some outer else none

/-- The closers that close no bracket of the text, if each bracket that the text opens is closed. -/
def unmatched : List Token → Option (List String)
  | [] => some []
  | t :: rest =>
    if t.isOpener then (unmatched rest).bind (close? t.text)
    else if t.isCloser then (unmatched rest).map (t.text :: ·)
    else unmatched rest

/-- Each bracket of the text is closed by one of its kind. -/
def Nested (tokens : List Token) : Prop := unmatched tokens = some []

instance (tokens : List Token) : Decidable (Nested tokens) := inferInstanceAs (Decidable (_ = _))

theorem eq_cons_of_close? {opener : String} {closers outer : List String} (h : close? opener closers = some outer) :
    closers = closing opener :: outer := by
  cases closers with
  | nil => cases h
  | cons closer rest =>
    obtain ⟨hcloser, heq⟩ := Option.ite_none_right_eq_some.mp h
    cases heq
    rw [hcloser]

variable {t : Token} {rest : List Token} {outer : List String}

theorem unmatched_of_opener (h : unmatched (t :: rest) = some outer) (ht : t.isOpener) :
    unmatched rest = some (closing t.text :: outer) := by
  rw [unmatched, if_pos ht] at h
  obtain ⟨closers, hrest, hclose⟩ := Option.bind_eq_some_iff.mp h
  rw [hrest, eq_cons_of_close? hclose]

theorem unmatched_of_closer (h : unmatched (t :: rest) = some outer) (ht : t.isCloser) :
    ∃ closers, outer = t.text :: closers ∧ unmatched rest = some closers := by
  have hopen : t.isOpener = false := by
    cases hopen : t.isOpener
    · rfl
    · rw [isCloser_eq_false hopen] at ht
      cases ht
  rw [unmatched, hopen, if_neg Bool.false_ne_true, if_pos ht] at h
  obtain ⟨closers, hrest, heq⟩ := Option.map_eq_some_iff.mp h
  exact ⟨closers, heq.symm, hrest⟩

theorem unmatched_of_other (hopen : ¬t.isOpener) (hclose : ¬t.isCloser) : unmatched (t :: rest) = unmatched rest := by
  rw [unmatched, if_neg hopen, if_neg hclose]

/-- The rest of a text closes the brackets that it opens. -/
theorem exists_unmatched (h : unmatched (t :: rest) = some outer) : ∃ closers, unmatched rest = some closers := by
  by_cases hopen : t.isOpener
  · exact ⟨_, unmatched_of_opener h hopen⟩
  · by_cases hclose : t.isCloser
    · obtain ⟨closers, -, hrest⟩ := unmatched_of_closer h hclose
      exact ⟨closers, hrest⟩
    · exact ⟨outer, unmatched_of_other hopen hclose ▸ h⟩

/-- The tokens of a text outside all brackets, if it stands inside `depth` of them. -/
def outermost : Nat → List Token → List Token
  | _, [] => []
  | depth, t :: rest =>
    if t.isOpener then outermost (depth + 1) rest
    else if t.isCloser then outermost (depth - 1) rest
    else if depth = 0 then t :: outermost depth rest
    else outermost depth rest

/-- Text that leaves a bracket around it open has no token outside all brackets. -/
theorem outermost_eq_nil {depth : Nat} {tokens : List Token} {closers : List String}
    (h : unmatched tokens = some closers) (hdepth : closers.length < depth) : outermost depth tokens = [] := by
  induction tokens generalizing depth closers with
  | nil => rfl
  | cons t rest ih =>
    rw [outermost]
    split
    · rename_i hopen
      exact ih (unmatched_of_opener h hopen) (Nat.succ_lt_succ hdepth)
    · rename_i hopen
      split
      · rename_i hclose
        obtain ⟨inner, rfl, hrest⟩ := unmatched_of_closer h hclose
        exact ih hrest (Nat.lt_sub_of_add_lt hdepth)
      · rename_i hclose
        rw [if_neg (Nat.ne_of_gt (Nat.lt_of_le_of_lt (Nat.zero_le _) hdepth))]
        exact ih (unmatched_of_other hopen hclose ▸ h) hdepth

/-- A text with some token outside all brackets splits at the first one. -/
theorem exists_split {p : Token → Bool} {tokens : List Token} {closers : List String}
    (h : unmatched tokens = some closers) (hp : ∃ t ∈ outermost closers.length tokens, p t) :
    ∃ front t rest, tokens = front ++ t :: rest ∧ p t ∧ t.isOpener = false ∧ t.isCloser = false ∧
      unmatched front = some closers ∧ unmatched rest = some [] ∧
      ∀ u ∈ outermost closers.length front, p u = false := by
  induction tokens generalizing closers with
  | nil =>
    obtain ⟨t, ht, -⟩ := hp
    cases ht
  | cons t tokens ih =>
    by_cases hopen : t.isOpener
    · rw [outermost, if_pos hopen] at hp
      obtain ⟨front, u, rest, rfl, hu, hopen', hclose', hfront, hrest, hnone⟩ :=
        ih (unmatched_of_opener h hopen) hp
      refine ⟨t :: front, u, rest, rfl, hu, hopen', hclose', ?_, hrest, fun v hv => hnone v ?_⟩
      · rw [unmatched, if_pos hopen, hfront]
        exact if_pos rfl
      · rwa [outermost, if_pos hopen] at hv
    · by_cases hclose : t.isCloser
      · obtain ⟨closers, rfl, hinner⟩ := unmatched_of_closer h hclose
        rw [outermost, if_neg hopen, if_pos hclose] at hp
        obtain ⟨front, u, rest, rfl, hu, hopen', hclose', hfront, hrest, hnone⟩ := ih hinner hp
        refine ⟨t :: front, u, rest, rfl, hu, hopen', hclose', ?_, hrest, fun v hv => hnone v ?_⟩
        · rw [unmatched, if_neg hopen, if_pos hclose, hfront]
          rfl
        · rwa [outermost, if_neg hopen, if_pos hclose] at hv
      · have hinner := unmatched_of_other hopen hclose ▸ h
        rw [outermost, if_neg hopen, if_neg hclose] at hp
        by_cases ht : closers.length = 0 ∧ p t
        · cases List.length_eq_zero_iff.mp ht.1
          exact ⟨[], t, tokens, rfl, ht.2, Bool.eq_false_iff.mpr hopen, Bool.eq_false_iff.mpr hclose, rfl, hinner,
            fun u hu => absurd hu List.not_mem_nil⟩
        · have hp' : ∃ u ∈ outermost closers.length tokens, p u := by
            obtain ⟨u, hu, hpu⟩ := hp
            split at hu
            · rcases List.mem_cons.mp hu with rfl | hu
              · exact absurd ⟨‹_›, hpu⟩ ht
              · exact ⟨u, hu, hpu⟩
            · exact ⟨u, hu, hpu⟩
          obtain ⟨front, u, rest, rfl, hu, hopen', hclose', hfront, hrest, hnone⟩ := ih hinner hp'
          refine ⟨t :: front, u, rest, rfl, hu, hopen', hclose', ?_, hrest, fun v hv => ?_⟩
          · rw [unmatched_of_other hopen hclose, hfront]
          · rw [outermost, if_neg hopen, if_neg hclose] at hv
            split at hv
            · rcases List.mem_cons.mp hv with rfl | hv
              · exact Bool.eq_false_iff.mpr fun hpv => ht ⟨‹_›, hpv⟩
              · exact hnone v hv
            · exact hnone v hv

/-- Tokens in a row, none of which begins the block of a lambda. -/
abbrev BlockFree (tokens : List Token) : Prop :=
  tokens.IsChain fun t u => (t.isPunctuation "=>" && u.isPunctuation "\x7b") = false

/-- Properly nested text without semicolons and lambda blocks. -/
structure Plain (tokens : List Token) : Prop where
  nested : Nested tokens
  noSemicolon : ∀ {t : Token}, t ∈ tokens → t.isPunctuation ";" = false
  blockFree : BlockFree tokens

end Token

namespace Reading

open Token

variable {statement : StatementReader} {scope : ScopeId} {stops : List String}

/-- The reading behind `tokens`, in front of `rest`. -/
def past (s : Reading) (tokens rest : List Token) : Reading :=
  { s with cursor := ⟨tokens.reverse ++ s.cursor.before, rest⟩ }

/-- Skips the rest of an expression inside the brackets `pending`. -/
def skipInside (statement : StatementReader) (scope : ScopeId) (stops pending : List String) (s : Reading) :
    Reading :=
  rounds (·.2.size) (expressionRound statement scope stops) (·.2.stall) (pending, s)

theorem skipInside_of_again {s : Reading} {t : Token} {rest : List Token} {pending inner : List String}
    (hahead : s.ahead = t :: rest)
    (h : expressionRound statement scope stops (pending, s) = .again (inner, s.next)) :
    skipInside statement scope stops pending s = skipInside statement scope stops inner (s.past [t] rest) := by
  obtain ⟨⟨before, ahead⟩, outline, errors, stalled⟩ := s
  cases (show ahead = t :: rest from hahead)
  exact rounds_of_again h (Nat.lt_succ_self _)

/-- An expression extends over properly nested text, up to a stop mark outside its brackets. The text may close
the brackets `inner` that are open in front of it. -/
theorem skipInside_nested {s : Reading} {previous : Token} {tokens rest : List Token} {closers : List String}
    (inner outer : List String) (hnested : unmatched tokens = some closers)
    (hlength : inner.length = closers.length) (hahead : s.ahead = tokens ++ rest)
    (hsemi : ∀ {t : Token}, t ∈ tokens → t.isPunctuation ";" = false)
    (hprevious : s.cursor.before.head? = some previous) (hblock : BlockFree (previous :: tokens))
    (hstop : ∀ {t : Token}, t ∈ outermost (inner ++ outer).length tokens →
      (t.kind == .punctuation && stops.contains t.text) = false) :
    skipInside statement scope stops (inner ++ outer) s =
      skipInside statement scope stops outer (s.past tokens rest) := by
  induction tokens generalizing s previous closers inner with
  | nil =>
    cases hnested
    cases List.length_eq_zero_iff.mp hlength
    obtain ⟨⟨before, ahead⟩, outline, errors, stalled⟩ := s
    cases (show ahead = rest from hahead)
    rfl
  | cons t tokens ih =>
    have hpeek : s.peek? = some t := congrArg List.head? hahead
    have harrow : (t.isPunctuation "\x7b" && s.isBehindArrow) = false := by
      rw [isBehindArrow, hprevious, Option.any_some, Bool.and_comm]
      exact (List.isChain_cons_cons.mp hblock).1
    have hagain {pending closers' : List String} (inner' : List String)
        (hround : expressionRound statement scope stops (pending, s) = .again (inner' ++ outer, s.next))
        (hnested' : unmatched tokens = some closers') (hlength' : inner'.length = closers'.length)
        (hstop' : ∀ {u : Token}, u ∈ outermost (inner' ++ outer).length tokens →
          (u.kind == .punctuation && stops.contains u.text) = false) :
        skipInside statement scope stops pending s =
          skipInside statement scope stops outer (s.past (t :: tokens) rest) := by
      rw [skipInside_of_again hahead hround,
        ih inner' hnested' hlength' rfl (fun hu => hsemi (List.mem_cons_of_mem _ hu)) rfl
          (List.isChain_cons_cons.mp hblock).2 hstop']
      simp [past]
    by_cases hopen : t.isOpener
    · refine hagain (closing t.text :: inner) ?_ (unmatched_of_opener hnested hopen) ?_ ?_
      · simp only [expressionRound, hpeek, harrow, hopen, Bool.false_eq_true, ↓reduceIte, List.cons_append]
      · rw [List.length_cons, List.length_cons, hlength]
      · intro u hu
        exact hstop (by rwa [outermost, if_pos hopen])
    · by_cases hclose : t.isCloser
      · obtain ⟨closers', rfl, hrest⟩ := unmatched_of_closer hnested hclose
        cases inner with
        | nil => cases hlength
        | cons closer inner =>
          refine hagain inner ?_ hrest (Nat.succ.inj hlength) ?_
          · simp only [expressionRound, hpeek, harrow, hopen, hclose, Bool.false_eq_true, ↓reduceIte,
              List.cons_append]
          · intro u hu
            refine hstop ?_
            rwa [outermost, if_neg hopen, if_pos hclose]
      · refine hagain inner ?_ (unmatched_of_other hopen hclose ▸ hnested) hlength ?_
        · simp only [expressionRound, hpeek, harrow, hopen, hclose, hsemi (List.mem_cons_self ..),
            Bool.false_and, Bool.false_eq_true, ↓reduceIte]
          cases hempty : (inner ++ outer).isEmpty with
          | false => rfl
          | true =>
            have hnil := List.isEmpty_iff.mp hempty
            have := hstop (t := t) (by simp [outermost, hopen, hclose, hnil])
            rw [Bool.true_and, this, if_neg Bool.false_ne_true]
        · intro u hu
          refine hstop ?_
          rw [outermost, if_neg hopen, if_neg hclose]
          split
          · exact List.mem_cons_of_mem _ hu
          · exact hu

end Reading

end CSharpStyle
