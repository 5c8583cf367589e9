import CSharpStyle.Proofs.Grammar.TypeText

/-!
# Created values

The value of a declarator is skipped by matching brackets up to the next comma, and angle brackets are not brackets
there. A value `new T(A)` is therefore skipped up to the `;` behind it, or up to the first comma of `T` outside its
parentheses and square brackets. What is left of `T` is then read as further declarators of a field, which never come to
a `;`.

* `Reading.At`: what is ahead of a reading without defects, and the names that it recorded.
* `skipExpression_creation` and `skipExpression_split`: where the value ends.
* `fieldRounds_malformed`: the further declarators are malformed.
-/

namespace CSharpStyle

open Token

/-- The tokens of `new T(A)`. -/
def creation (type arguments : List Token) : List Token :=
  keyword "new" :: (type ++ mark "(" :: (arguments ++ [mark ")"]))

namespace Reading

/-- The names of the declarations recorded so far. -/
def names (s : Reading) : List String := s.outline.entries.map (·.name)

/-- No defect was found so far. -/
structure At (ahead : List Token) (names : List String) (s : Reading) : Prop where
  ahead : s.ahead = ahead
  names : s.names = names
  errors : s.errors = #[]
  moving : s.stalled = false

theorem eat_none_of_sees {s : Reading} {mark : String} (h : s.sees mark = false) : s.eat? mark = none := by
  rw [eat?, Cursor.eat?, show s.cursor.sees mark = false from h]
  rfl

theorem eat_of_sees {s : Reading} {mark : String} (h : s.sees mark) : s.eat? mark = some s.next := by
  rw [eat?, Cursor.eat?, show s.cursor.sees mark = true from h]
  rfl

namespace At

variable {s : Reading} {t : Token} {rest : List Token} {names : List String}

theorem peek (h : s.At (t :: rest) names) : s.peek? = some t := congrArg List.head? h.ahead

theorem next (h : s.At (t :: rest) names) : s.next.At rest names :=
  ⟨congrArg List.tail h.ahead, h.names, h.errors, h.moving⟩

theorem sees (h : s.At (t :: rest) names) (mark : String) : s.sees mark = t.isPunctuation mark :=
  Cursor.sees_of_peek? h.peek mark

theorem eat (h : s.At (t :: rest) names) (mark : String) (ht : t.isPunctuation mark) : s.eat? mark = some s.next :=
  eat_of_sees ((h.sees mark).trans ht)

theorem eat_none (h : s.At (t :: rest) names) (mark : String) (ht : t.isPunctuation mark = false) :
    s.eat? mark = none :=
  eat_none_of_sees ((h.sees mark).trans ht)

theorem seesKeyword (h : s.At (t :: rest) names) (word : String) : s.seesKeyword word = t.isKeyword word := by
  rw [Reading.seesKeyword, Cursor.seesKeyword, show s.cursor.peek? = some t from h.peek]
  rfl

theorem eatKeyword_none (h : s.At (t :: rest) names) (word : String) (ht : t.isKeyword word = false) :
    s.eatKeyword? word = none := by
  rw [eatKeyword?, Cursor.eatKeyword?, show s.cursor.seesKeyword word = false from (h.seesKeyword word).trans ht]
  rfl

theorem name (h : s.At (t :: rest) names) (ht : t.isName) : s.name? = some (t, s.next) := by
  rw [Reading.name?, Cursor.name?, show s.cursor.peek? = some t from h.peek]
  simp only [ht, ↓reduceIte]
  rfl

theorem declare (h : s.At rest names) (scope : ScopeId) {d : Declaration} {name : String} (hname : d.name = name) :
    (s.declare scope d).At rest (names ++ [name]) where
  ahead := h.ahead
  names := by
    rw [Reading.names, Reading.declare, Outline.entries_declare, List.map_append, ← h.names, ← hname]
    rfl
  errors := h.errors
  moving := h.moving

theorem declareMember (h : s.At rest names) (place : Place) (header : Header) (name : Token) (kind : DeclarationKind)
    (group : Option GroupPlace) :
    (s.declareMember place header name kind group).At rest (names ++ [name.identifierName]) :=
  h.declare _ rfl

theorem declareLocal (h : s.At rest names) {scope : ScopeId} {d : Declarator} {role : Role} {inForeach : Bool}
    {apparentness : Apparentness} {group : Option GroupPlace} {name : String} (hname : d.token.identifierName = name) :
    (s.declareLocal scope d role inForeach apparentness group).At rest (names ++ [name]) :=
  h.declare _ hname

theorem openScope (h : s.At rest names) (kind : ScopeKind) (name : Option String) (parent : ScopeId) :
    (s.openScope kind name parent).2.At rest names :=
  ⟨h.ahead, h.names, h.errors, h.moving⟩

theorem newGroup (h : s.At rest names) : s.newGroup.2.At rest names :=
  ⟨h.ahead, h.names, h.errors, h.moving⟩

theorem size (h : s.At rest names) : s.size = rest.length := congrArg List.length h.ahead

end At

/-! ### Skipping the value -/

variable {statement : StatementReader} {scope : ScopeId} {s : Reading} {rest : List Token}

/-- A token outside all brackets that is no bracket and no stop belongs to the expression. -/
theorem expressionRound_other {stops pending : List String} {t : Token} (ht : s.peek? = some t)
    (hopen : t.isOpener = false) (hclose : t.isCloser = false) (hsemi : t.isPunctuation ";" = false)
    (hstop : (t.kind == .punctuation && stops.contains t.text) = false) :
    expressionRound statement scope stops (pending, s) = .again (pending, s.next) := by
  have hbrace : t.isPunctuation "\x7b" = false := by
    cases hmark : t.isPunctuation "\x7b" with
    | false => rfl
    | true =>
      obtain ⟨hkind, htext⟩ := eq_of_isPunctuation hmark
      simp [isOpener, hkind, htext] at hopen
  simp only [expressionRound, ht, hbrace, hopen, hclose, hsemi, Bool.false_and, Bool.false_eq_true, ↓reduceIte,
    Bool.and_assoc, hstop, Bool.and_false]

theorem blockFree_cons {tokens : List Token} (h : ∀ t ∈ tokens, t.isPunctuation "\x7b" = false) (previous : Token) :
    BlockFree (previous :: tokens) := by
  induction tokens generalizing previous with
  | nil => exact .singleton _
  | cons t tokens ih =>
    refine List.isChain_cons_cons.mpr ⟨?_, ih (fun u hu => h u (List.mem_cons_of_mem _ hu)) t⟩
    rw [h t (List.mem_cons_self ..), Bool.and_false]

end Reading

namespace Token.TypeText

variable {text : List Token}

/-- A mark that cannot stand in a type does not occur. -/
theorem not_isPunctuation (h : TypeText text) {t : Token} (ht : t ∈ text) {symbol : String}
    (hsymbol : isTypeToken (mark symbol) = false) : t.isPunctuation symbol = false := by
  cases hmark : t.isPunctuation symbol with
  | false => rfl
  | true =>
    obtain ⟨hkind, htext⟩ := eq_of_isPunctuation hmark
    have hsame : isTypeToken t = isTypeToken (mark symbol) := by
      simp only [isTypeToken, Cursor.isTypeArgumentToken, isPunctuation, hkind, htext, mark]
    rw [h.tokens ht, hsymbol] at hsame
    cases hsame

end Token.TypeText

namespace Reading

variable {statement : StatementReader} {scope : ScopeId} {s : Reading} {type arguments rest : List Token}
  {names : List String}

/-- A type behind `new` extends to the end or to its first comma outside all brackets. -/
theorem skipInside_type {text : List Token} (hs : s.ahead = keyword "new" :: (text ++ rest)) (hnested : Nested text)
    (hmarks : ∀ t ∈ text, t.isPunctuation ";" = false ∧ t.isPunctuation "\x7b" = false)
    (hcomma : ∀ t ∈ outermost 0 text, t.isPunctuation "," = false) :
    skipExpression statement scope [","] s =
      skipInside statement scope [","] [] ((s.past [keyword "new"] (text ++ rest)).past text rest) := by
  have hnew : skipExpression statement scope [","] s =
      skipInside statement scope [","] [] (s.past [keyword "new"] (text ++ rest)) :=
    skipInside_of_again hs (expressionRound_other (congrArg List.head? hs) rfl rfl rfl rfl)
  rw [hnew]
  refine skipInside_nested [] [] hnested rfl rfl (fun ht => (hmarks _ ht).1) rfl
    (blockFree_cons (fun t ht => (hmarks t ht).2) _) fun {t} ht => ?_
  simpa [isPunctuation] using hcomma t ht

/-- A value `new T(A)` extends to the `;` if no comma of `T` ends it. -/
theorem skipExpression_creation (h : s.At (creation type arguments ++ mark ";" :: rest) names) (htype : TypeText type)
    (harguments : Plain arguments) (hcomma : ∀ t ∈ outermost 0 type, t.isPunctuation "," = false) :
    (skipExpression statement scope [","] s).At (mark ";" :: rest) names := by
  have hs : s.ahead = keyword "new" :: (type ++ mark "(" :: (arguments ++ mark ")" :: mark ";" :: rest)) := by
    rw [h.ahead, creation]
    simp only [List.cons_append, List.append_assoc, List.nil_append]
  have hblock : BlockFree (mark "(" :: arguments) := by
    cases arguments with
    | nil => exact .singleton _
    | cons t arguments => exact List.isChain_cons_cons.mpr ⟨rfl, harguments.blockFree⟩
  have hdepth : outermost 1 arguments = [] := outermost_eq_nil harguments.nested Nat.one_pos
  let u := (s.past [keyword "new"] (type ++ mark "(" :: (arguments ++ mark ")" :: mark ";" :: rest))).past type
    (mark "(" :: (arguments ++ mark ")" :: mark ";" :: rest))
  let v := u.past [mark "("] (arguments ++ mark ")" :: mark ";" :: rest)
  let w := v.past arguments (mark ")" :: mark ";" :: rest)
  have hinner : skipInside statement scope [","] [")"] v = skipInside statement scope [","] [")"] w := by
    refine skipInside_nested [] [")"] harguments.nested rfl rfl harguments.noSemicolon rfl hblock fun ht => ?_
    rw [show ([] ++ [")"] : List String).length = 1 from rfl, hdepth] at ht
    cases ht
  have hskip : skipExpression statement scope [","] s = w.past [mark ")"] (mark ";" :: rest) :=
    calc skipExpression statement scope [","] s
        = skipInside statement scope [","] [] u :=
          skipInside_type hs htype.nested
            (fun t ht => ⟨htype.not_isPunctuation ht rfl, htype.not_isPunctuation ht rfl⟩) hcomma
      _ = skipInside statement scope [","] [")"] v := skipInside_of_again rfl rfl
      _ = skipInside statement scope [","] [")"] w := hinner
      _ = skipInside statement scope [","] [] (w.past [mark ")"] (mark ";" :: rest)) := skipInside_of_again rfl rfl
      _ = w.past [mark ")"] (mark ";" :: rest) := rounds_of_done rfl
  rw [hskip]
  exact ⟨rfl, h.names, h.errors, h.moving⟩

/-- A value `new T(A)` ends at a comma of `T` outside its brackets. -/
theorem skipExpression_split {front : List Token} {comma : Token}
    (hs : s.ahead = keyword "new" :: (front ++ comma :: rest)) (hnested : Nested front)
    (hmarks : ∀ t ∈ front, t.isPunctuation ";" = false ∧ t.isPunctuation "\x7b" = false)
    (hfront : ∀ t ∈ outermost 0 front, t.isPunctuation "," = false) (hcomma : comma.isPunctuation ",") :
    skipExpression statement scope [","] s =
      (s.past [keyword "new"] (front ++ comma :: rest)).past front (comma :: rest) := by
  obtain ⟨hkind, htext⟩ := eq_of_isPunctuation hcomma
  rw [skipInside_type hs hnested hmarks hfront]
  refine rounds_of_done ?_
  simp [expressionRound, past, peek?, Cursor.peek?, isPunctuation, isOpener, isCloser, hkind, htext]

/-! ### The declarators that a comma makes of a type -/

/-- A reading that went on from `s` and found a defect. -/
structure Flawed (s t : Reading) : Prop where
  errors : t.errors ≠ #[]
  moving : t.stalled = false
  size : t.size ≤ s.size

theorem flawed_report (hs : s.stalled = false) (defect : Defect) : s.Flawed (s.report defect) :=
  ⟨Array.push_ne_empty, hs, Nat.le_refl _⟩

theorem Flawed.mono {t u : Reading} (h : t.Flawed u) (hsize : t.size ≤ s.size) : s.Flawed u :=
  ⟨h.errors, h.moving, Nat.le_trans h.size hsize⟩

/-- A group at the beginning of a text that closes its brackets ends in this text. -/
theorem skipGroupAt_append {text : List Token} (hclosed : ∃ closers, unmatched text = some closers)
    (hs : s.ahead = text ++ mark "(" :: rest) :
    ∃ behind, behind <:+ text ∧ (s.skipGroupAt "[").ahead = behind ++ mark "(" :: rest := by
  rw [skipGroupAt]
  split
  · rename_i hsees
    rw [Reading.sees, Cursor.sees, show s.cursor.peek? = _ from congrArg List.head? hs] at hsees
    cases text with
    | nil => cases hsees
    | cons t text =>
      obtain ⟨closers, hclosers⟩ := hclosed
      obtain ⟨behind, hsuffix, hbehind⟩ :=
        Cursor.skipGroup_append hclosers (Cursor.isOpener_of_isPunctuation hsees)
      refine ⟨behind, hsuffix.trans (List.suffix_cons _ _), ?_⟩
      exact (congrArg (fun ahead => (Cursor.skipGroup ⟨s.cursor.before, ahead⟩).ahead) hs).trans (hbehind _ _)
  · exact ⟨text, List.suffix_refl _, hs⟩

/-- The name behind a comma stands in the text, since the text is followed by a mark. -/
theorem exists_of_name {text : List Token} {name : Token} {t : Reading} (hs : s.ahead = text ++ mark "(" :: rest)
    (hcomma : s.sees ",") (hname : s.next.name? = some (name, t)) :
    ∃ more, more <:+ text ∧ more.length < text.length ∧ t.ahead = more ++ mark "(" :: rest ∧
      t.stalled = s.stalled := by
  rw [Reading.sees, Cursor.sees, show s.cursor.peek? = _ from congrArg List.head? hs] at hcomma
  obtain ⟨⟨u, c⟩, hcursor, heq⟩ := Option.map_eq_some_iff.mp hname
  cases heq
  rw [Cursor.name?, show s.next.cursor.peek? = _ from congrArg (fun ahead => ahead.tail.head?) hs] at hcursor
  obtain _ | ⟨comma, _ | ⟨_, more⟩⟩ := text
  · cases hcomma
  · cases hcursor
  · obtain ⟨-, heq⟩ := Option.ite_none_right_eq_some.mp hcursor
    cases heq
    refine ⟨more, ⟨[comma, name], rfl⟩, Nat.lt_add_of_pos_right Nat.two_pos, ?_, rfl⟩
    exact congrArg (fun ahead => ahead.tail.tail) hs

section

variable (place : Place) (header : Header) (kind : DeclarationKind) (group : Nat)

/-- A comma ends the value of a declarator that is followed by `(` before any `;`. The next declarator is read in
what is left of the text, if there is a name for it. -/
theorem fieldRound_comma {v : Reading} {text : List Token} {name : Token} {index : Nat}
    (hvalue : skipValue Statement.read place.scope
      ((s.declareMember place header name kind (some { group, index })).skipGroupAt "[") = v)
    (hv : v.ahead = text ++ mark "(" :: rest) (hcomma : v.sees ",") (hmoving : v.stalled = false)
    (hsize : v.size ≤ s.size)
    (hloop : ∀ {more : List Token} {t : Reading} (name : Token) (index : Nat), more <:+ text →
      more.length < text.length → t.ahead = more ++ mark "(" :: rest → t.stalled = false →
      ∃ u, rounds (·.2.size) (fieldRound place header kind group) (.malformed ·.2.stall) ((name, index), t) =
        .malformed u ∧ t.Flawed u) :
    ∃ u, rounds (·.2.size) (fieldRound place header kind group) (.malformed ·.2.stall) ((name, index), s) =
      .malformed u ∧ s.Flawed u := by
  cases hname : v.next.name? with
  | none =>
    refine ⟨v.next.report (.expectedName "declarator after ','"), rounds_of_done ?_,
      (flawed_report (s := v.next) hmoving _).mono (Nat.le_trans (Cursor.size_next_le _) hsize)⟩
    simp only [fieldRound, hvalue, eat_of_sees hcomma, hname]
  | some read =>
    obtain ⟨name', t⟩ := read
    obtain ⟨more, hmore, hlength, ht, hstill⟩ := exists_of_name hv hcomma hname
    have hless : t.size < s.size := by
      refine Nat.lt_of_lt_of_le ?_ hsize
      rw [size, Cursor.size, show t.cursor.ahead = _ from ht, size, Cursor.size, show v.cursor.ahead = _ from hv]
      simpa using hlength
    have hround : fieldRound place header kind group ((name, index), s) = .again ((name', index + 1), t) := by
      simp only [fieldRound, hvalue, eat_of_sees hcomma, hname]
    obtain ⟨u, hread, hflawed⟩ := hloop name' (index + 1) hmore hlength ht (hstill.trans hmoving)
    refine ⟨u, ?_, hflawed.mono (Nat.le_of_lt hless)⟩
    rw [rounds_of_again hround hless, hread]

/-- What stands behind a comma of a type never ends a list of declarators, since `(` comes before any `;`. -/
theorem fieldRounds_malformed {text : List Token} (hclosed : ∃ closers, unmatched text = some closers)
    (hmarks : ∀ t ∈ text, t.isPunctuation "=" = false ∧ t.isPunctuation ";" = false)
    (hs : s.ahead = text ++ mark "(" :: rest) (hmoving : s.stalled = false) (name : Token) (index : Nat) :
    ∃ u, rounds (·.2.size) (fieldRound place header kind group) (.malformed ·.2.stall) ((name, index), s) =
        .malformed u ∧ s.Flawed u := by
  induction hn : text.length using Nat.strongRecOn generalizing text s name index with
  | ind n ih =>
    obtain ⟨behind, hsuffix, hahead⟩ := skipGroupAt_append (s := s.declareMember place header name kind
      (some { group, index })) hclosed hs
    generalize hv : (s.declareMember place header name kind (some { group, index })).skipGroupAt "[" = v at hahead
    have hstalled : v.stalled = false := by
      rw [← hv, skipGroupAt]
      split <;> exact hmoving
    have hsize : v.size ≤ s.size := by
      rw [size, Cursor.size, show v.cursor.ahead = _ from hahead, size, Cursor.size, show s.cursor.ahead = _ from hs]
      simpa using hsuffix.length_le
    have hother {symbol : String} (hmark : (mark "(").isPunctuation symbol = false)
        (htext : ∀ t ∈ text, t.isPunctuation symbol = false) : v.eat? symbol = none := by
      refine eat_none_of_sees ?_
      rw [Reading.sees, Cursor.sees, show v.cursor.peek? = _ from congrArg List.head? hahead]
      cases behind with
      | nil => exact hmark
      | cons t behind => exact htext t (hsuffix.mem (List.mem_cons_self ..))
    have hvalue : skipValue Statement.read place.scope v = v := by
      rw [skipValue, hother rfl fun t ht => (hmarks t ht).1]
    by_cases hcomma : v.sees ","
    · refine fieldRound_comma place header kind group (hv ▸ hvalue) hahead hcomma hstalled hsize
        fun name index hmore hlength ht hmoving => ?_
      exact ih _ (hn ▸ Nat.lt_of_lt_of_le hlength hsuffix.length_le)
        (Cursor.exists_unmatched_of_suffix hclosed (hmore.trans hsuffix))
        (fun t ht => hmarks t ((hmore.trans hsuffix).mem ht)) ht hmoving name index rfl
    · refine ⟨v.report (.expected "';' after field declaration"), rounds_of_done ?_,
        (flawed_report hstalled _).mono hsize⟩
      simp only [fieldRound, hv, hvalue, eat_none_of_sees (Bool.eq_false_iff.mpr hcomma),
        hother rfl fun t ht => (hmarks t ht).2]

end

end Reading

end CSharpStyle
