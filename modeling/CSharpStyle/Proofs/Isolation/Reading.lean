import CSharpStyle.Proofs.Isolation.Cursor

/-!
# Readings inside a member

Two files `class C { M ; R }` and `class C { M ; }` are read in step as long as reading is inside `M`. It leaves `M`
behind the `;` in both of them, or it is lost: a search for `>` or `(` went past the `;`, and in the second file it has
reached the end.

* `Reading.Inside`, `Reading.Behind`, `Reading.Lost`: what the two readings have in common.
* `Reading.Passage`: one of the three.
* `Inside.recover`: recovery from inside the member ends behind it.
-/

namespace CSharpStyle

open Token

namespace Outline

/-- The scopes of the file and of the class are those with which the body of the class began. -/
structure Kept (o : Outline) : Prop where
  size : 2 ≤ o.scopes.size
  heading {id : ScopeId} : id < 2 → o.heading? id = ofClass.heading? id

theorem Kept.addScope {o : Outline} (h : o.Kept) (kind : ScopeKind) (name : Option String)
    (typeKind : Option TypeKind) (parent : ScopeId) : (o.addScope kind name typeKind parent).2.Kept where
  size := by rw [size_addScope]; exact Nat.le_succ_of_le h.size
  heading hid := by
    rw [heading_addScope, if_neg (Nat.ne_of_lt (Nat.lt_of_lt_of_le hid h.size)), h.heading hid]

theorem Kept.declare {o : Outline} (h : o.Kept) (scope : ScopeId) (d : Declaration) : (o.declare scope d).Kept where
  size := by rw [size_declare]; exact h.size
  heading hid := by rw [heading_declare, h.heading hid]

end Outline

namespace Reading

/-- The readings recorded the same declarations, and the second one found no scope unclosed. -/
structure Even (s t : Reading) : Prop where
  outline : s.outline = t.outline
  kept : t.outline.Kept
  closed {e : StructureError} : e ∈ t.errors → e.kind ≠ .unclosedScope
  moving : s.stalled = false ∧ t.stalled = false

/-- The readings are inside the same member. Behind it, `rest` follows in the first file. -/
structure Inside (rest : List Token) (s t : Reading) : Prop extends Even s t where
  cursor : Cursor.Inside rest [mark "\x7d"] s.cursor t.cursor

/-- The readings are right behind the `;` of the member. -/
structure Behind (rest : List Token) (s t : Reading) : Prop extends Even s t where
  ahead : s.ahead = rest ∧ t.ahead = [mark "\x7d"]
  mark : s.cursor.before.head? = some (mark ";")

/-- All tokens were consumed. -/
structure Spent (s : Reading) : Prop where
  ahead : s.ahead = []
  moving : s.stalled = false

/-- Tokens without a mark that the readers of members search for. -/
def Unsought (rest : List Token) : Prop :=
  ∀ t ∈ rest, t.isPunctuation ">" = false ∧ t.isPunctuation "(" = false

instance (rest : List Token) : Decidable (Unsought rest) := inferInstanceAs (Decidable (∀ t ∈ rest, _))

/-- The second reading has reached the end of its file, and so has the first one if no mark behind the member could
stop it. -/
structure Lost (rest : List Token) (s t : Reading) : Prop where
  spent : t.Spent
  alike : Unsought rest → s.Spent ∧ s.outline.entries = t.outline.entries

/-- How a reader leaves the place where it began inside a member. -/
inductive Passage (rest : List Token) (s t : Reading) : Prop
  | inside (h : Inside rest s t)
  | behind (h : Behind rest s t)
  | lost (h : Lost rest s t)

variable {rest : List Token} {s t : Reading}

namespace Even

theorem reportAt (h : Even s t) (p q : Position) {defect : Defect} (hdefect : defect.kind ≠ .unclosedScope) :
    Even (s.reportAt p defect) (t.reportAt q defect) where
  outline := h.outline
  kept := h.kept
  closed he := by
    rcases Array.mem_push.mp he with he | rfl
    · exact h.closed he
    · exact hdefect
  moving := h.moving

theorem report (h : Even s t) {defect : Defect} (hdefect : defect.kind ≠ .unclosedScope) :
    Even (s.report defect) (t.report defect) :=
  h.reportAt _ _ hdefect

theorem declare (h : Even s t) (scope : ScopeId) (d : Declaration) : Even (s.declare scope d) (t.declare scope d) where
  outline := congrArg (·.declare scope d) h.outline
  kept := h.kept.declare scope d
  closed := h.closed
  moving := h.moving

end Even

namespace Inside

theorem move (h : Inside rest s t) {c d : Cursor} (hmove : Cursor.Inside rest [Token.mark "\x7d"] c d) :
    Inside rest { s with cursor := c } { t with cursor := d } :=
  ⟨⟨h.outline, h.kept, h.closed, h.moving⟩, hmove⟩

theorem report (h : Inside rest s t) {defect : Defect} (hdefect : defect.kind ≠ .unclosedScope) :
    Inside rest (s.report defect) (t.report defect) :=
  ⟨h.toEven.report hdefect, h.cursor⟩

theorem declare (h : Inside rest s t) (scope : ScopeId) (d : Declaration) :
    Inside rest (s.declare scope d) (t.declare scope d) :=
  ⟨h.toEven.declare scope d, h.cursor⟩

theorem openScope (h : Inside rest s t) (kind : ScopeKind) (name : Option String) (parent : ScopeId) :
    ∃ id s' t', s.openScope kind name parent = (id, s') ∧ t.openScope kind name parent = (id, t') ∧
      Inside rest s' t' := by
  refine ⟨t.outline.scopes.size, _, _, Prod.ext (congrArg (·.scopes.size) h.outline) rfl, rfl, ⟨?_, ?_, ?_, ?_⟩, ?_⟩
  · exact congrArg (fun o => (o.addScope kind name none parent).2) h.outline
  · exact h.kept.addScope kind name none parent
  · exact h.closed
  · exact h.moving
  · exact h.cursor

theorem openType (h : Inside rest s t) (kind : TypeKind) (name : String) (parent : ScopeId) :
    ∃ id s' t', s.openType kind name parent = (id, s') ∧ t.openType kind name parent = (id, t') ∧
      Inside rest s' t' := by
  refine ⟨t.outline.scopes.size, _, _, Prod.ext (congrArg (·.scopes.size) h.outline) rfl, rfl, ⟨?_, ?_, ?_, ?_⟩, ?_⟩
  · exact congrArg (fun o => (o.addScope .typeBody (some name) (some kind) parent).2) h.outline
  · exact h.kept.addScope .typeBody (some name) (some kind) parent
  · exact h.closed
  · exact h.moving
  · exact h.cursor

theorem newGroup (h : Inside rest s t) :
    ∃ group s' t', s.newGroup = (group, s') ∧ t.newGroup = (group, t') ∧ Inside rest s' t' := by
  refine ⟨t.outline.groups, _, _, Prod.ext (congrArg (·.groups) h.outline) rfl, rfl, ⟨?_, ?_, ?_, ?_⟩, ?_⟩
  · exact congrArg (·.newGroup.2) h.outline
  · exact ⟨h.kept.size, h.kept.heading⟩
  · exact h.closed
  · exact h.moving
  · exact h.cursor

theorem lockstep (rest : List Token) : Cursor.Lockstep Eq (Cursor.Inside rest [Token.mark "\x7d"]) :=
  Cursor.lockstep_inside rest _

theorem peek_eq (h : Inside rest s t) : s.peek? = t.peek? := h.cursor.peek_eq

theorem sees (h : Inside rest s t) (mark : String) : s.sees mark = t.sees mark := (lockstep rest).sees h.cursor mark

theorem seesKeyword (h : Inside rest s t) (word : String) : s.seesKeyword word = t.seesKeyword word :=
  (lockstep rest).seesKeyword h.cursor word

theorem next (h : Inside rest s t) {a : Token} (ha : s.peek? = some a) (hsemi : a.isPunctuation ";" = false) :
    Inside rest s.next t.next :=
  h.move (h.cursor.of_peek ha hsemi).choose_spec.2.2.2

/-- There is no brace inside a member. -/
theorem sees_brace (h : Inside rest s t) : s.sees "\x7b" = false ∧ s.sees "\x7d" = false := by
  rcases h.cursor.cases with ⟨hs, -⟩ | ⟨a, text, htext, hs, -, -⟩
  · simp only [Reading.sees, Cursor.sees, Cursor.peek?, hs]
    exact ⟨rfl, rfl⟩
  · simp only [Reading.sees, Cursor.sees, Cursor.peek?, hs]
    exact htext.noBrace (List.mem_cons_self ..)

theorem eat_cases (h : Inside rest s t) (mark : String) (hmark : mark ≠ ";") :
    (s.eat? mark = none ∧ t.eat? mark = none) ∨
      ∃ s' t', s.eat? mark = some s' ∧ t.eat? mark = some t' ∧ Inside rest s' t' := by
  rw [Reading.eat?, Reading.eat?, Cursor.eat?, Cursor.eat?, ← (lockstep rest).sees h.cursor mark]
  split
  · rename_i hsees
    obtain ⟨a, ha, hmark'⟩ := Cursor.exists_of_sees hsees
    exact .inr ⟨_, _, rfl, rfl, h.next ha (Token.isPunctuation_of_ne hmark' hmark)⟩
  · exact .inl ⟨rfl, rfl⟩

theorem eatKeyword_cases (h : Inside rest s t) (word : String) :
    (s.eatKeyword? word = none ∧ t.eatKeyword? word = none) ∨
      ∃ s' t', s.eatKeyword? word = some s' ∧ t.eatKeyword? word = some t' ∧ Inside rest s' t' := by
  rw [Reading.eatKeyword?, Reading.eatKeyword?]
  rcases rel_cases ((lockstep rest).eatKeyword? h.cursor word) with ⟨hs, ht⟩ | ⟨c, d, hs, ht, hmove⟩
  · rw [hs, ht]; exact .inl ⟨rfl, rfl⟩
  · rw [hs, ht]; exact .inr ⟨_, _, rfl, rfl, h.move hmove⟩

theorem name_cases (h : Inside rest s t) :
    (s.name? = none ∧ t.name? = none) ∨
      ∃ a s' t', s.name? = some (a, s') ∧ t.name? = some (a, t') ∧ Inside rest s' t' := by
  rw [Reading.name?, Reading.name?]
  rcases rel_cases ((lockstep rest).name? h.cursor) with ⟨hs, ht⟩ | ⟨⟨a, c⟩, ⟨_, d⟩, hs, ht, rfl, hmove⟩
  · rw [hs, ht]; exact .inl ⟨rfl, rfl⟩
  · rw [hs, ht]; exact .inr ⟨a, _, _, rfl, rfl, h.move hmove⟩

theorem type_cases (h : Inside rest s t) :
    (s.type? = none ∧ t.type? = none) ∨
      ∃ isVar s' t', s.type? = some (isVar, s') ∧ t.type? = some (isVar, t') ∧ Inside rest s' t' := by
  rw [Reading.type?, Reading.type?]
  rcases rel_cases ((lockstep rest).type? h.cursor) with ⟨hs, ht⟩ | ⟨⟨isVar, c⟩, ⟨_, d⟩, hs, ht, rfl, hmove⟩
  · rw [hs, ht]; exact .inl ⟨rfl, rfl⟩
  · rw [hs, ht]; exact .inr ⟨isVar, _, _, rfl, rfl, h.move hmove⟩

theorem header (h : Inside rest s t) : s.header.1 = t.header.1 ∧ Inside rest s.header.2 t.header.2 := by
  obtain ⟨hheader, hmove⟩ := (lockstep rest).read h.cursor
  exact ⟨hheader, h.move hmove⟩

theorem next_behind (h : Inside rest s t) (hs : s.cursor.ahead = Token.mark ";" :: rest)
    (ht : t.cursor.ahead = [Token.mark ";", Token.mark "\x7d"]) : Behind rest s.next t.next where
  toEven := ⟨h.outline, h.kept, h.closed, h.moving⟩
  ahead := ⟨congrArg List.tail hs, congrArg List.tail ht⟩
  mark := congrArg (fun ahead : List Token => some (ahead.headD default)) hs

/-- The `;` behind the member is eaten in both files. -/
theorem eat_semicolon (h : Inside rest s t) :
    (s.eat? ";" = none ∧ t.eat? ";" = none) ∨
      ∃ s' t', s.eat? ";" = some s' ∧ t.eat? ";" = some t' ∧ Behind rest s' t' := by
  rcases h.cursor.cases with ⟨hs, ht⟩ | ⟨a, text, htext, hs, ht, -⟩
  · have hsees {u : Reading} {behind : List Token} (hu : u.cursor.ahead = Token.mark ";" :: behind) :
        u.eat? ";" = some u.next := by
      simp only [Reading.eat?, Cursor.eat?, Cursor.sees, Cursor.peek?, hu]
      rfl
    exact .inr ⟨s.next, t.next, hsees hs, hsees ht, h.next_behind hs ht⟩
  · have hsemi := htext.noSemicolon (List.mem_cons_self ..)
    simp only [Reading.eat?, Cursor.eat?, Cursor.sees, Cursor.peek?, hs, ht, List.head?_cons, Option.any_some, hsemi]
    exact .inl ⟨rfl, rfl⟩

theorem skip (h : Inside rest s t) (mark : String) (hmark : mark ≠ ";") : Inside rest (s.skip mark) (t.skip mark) := by
  rw [Reading.skip, Reading.skip]
  rcases h.eat_cases mark hmark with ⟨hs, ht⟩ | ⟨s', t', hs, ht, h'⟩
  · rw [hs, ht]; exact h
  · rw [hs, ht]; exact h'

theorem skip_semicolon (h : Inside rest s t) : Passage rest (s.skip ";") (t.skip ";") := by
  rw [Reading.skip, Reading.skip]
  rcases h.eat_semicolon with ⟨hs, ht⟩ | ⟨s', t', hs, ht, h'⟩
  · rw [hs, ht]; exact .inside h
  · rw [hs, ht]; exact .behind h'

theorem require (h : Inside rest s t) (mark : String) (hmark : mark ≠ ";") {defect : Defect}
    (hdefect : defect.kind ≠ .unclosedScope) : Inside rest (s.require mark defect) (t.require mark defect) := by
  rw [Reading.require, Reading.require]
  rcases h.eat_cases mark hmark with ⟨hs, ht⟩ | ⟨s', t', hs, ht, h'⟩
  · rw [hs, ht]; exact h.report hdefect
  · rw [hs, ht]; exact h'

theorem require_semicolon (h : Inside rest s t) {defect : Defect} (hdefect : defect.kind ≠ .unclosedScope) :
    Passage rest (s.require ";" defect) (t.require ";" defect) := by
  rw [Reading.require, Reading.require]
  rcases h.eat_semicolon with ⟨hs, ht⟩ | ⟨s', t', hs, ht, h'⟩
  · rw [hs, ht]; exact .inside (h.report hdefect)
  · rw [hs, ht]; exact .behind h'

theorem skipGroupAt (h : Inside rest s t) (opener : String) (hopener : opener = "(" ∨ opener = "[") :
    Inside rest (s.skipGroupAt opener) (t.skipGroupAt opener) := by
  rw [Reading.skipGroupAt, Reading.skipGroupAt, ← h.sees]
  split
  · rename_i hsees
    obtain ⟨a, ha, hmark⟩ := Cursor.exists_of_sees hsees
    refine h.move ((lockstep rest).skipGroup h.cursor ?_)
    obtain ⟨hkind, htext⟩ := eq_of_isPunctuation hmark
    rw [ha, Option.any_some, isOpener, hkind, htext]
    rcases hopener with rfl | rfl <;> rfl
  · exact h

theorem recoverRound (h : Inside rest s t) :
    Round.Rel (fun s' t' => Inside rest s' t' ∧ s'.size < s.size ∧ t'.size < t.size) (Behind rest)
      (Reading.recoverRound s) (Reading.recoverRound t) := by
  rw [Reading.recoverRound, Reading.recoverRound, ← h.peek_eq]
  rcases h.cursor.cases with ⟨hs, ht⟩ | ⟨a, text, htext, hs, ht, hnext⟩
  · rw [show s.peek? = some (Token.mark ";") from congrArg List.head? hs]
    exact .done (h.next_behind hs ht)
  · have hpeek : s.peek? = some a := congrArg List.head? hs
    have hsne : s.cursor.ahead ≠ [] := by rw [hs]; exact List.cons_ne_nil _ _
    have htne : t.cursor.ahead ≠ [] := by rw [ht]; exact List.cons_ne_nil _ _
    have hsemi := htext.noSemicolon (List.mem_cons_self ..)
    obtain ⟨hopenBrace, hcloseBrace⟩ := htext.noBrace (List.mem_cons_self ..)
    simp only [hpeek, hsemi, hopenBrace, hcloseBrace, Bool.false_eq_true, ↓reduceIte]
    split
    · refine .again ⟨h.move ((lockstep rest).skipGroup h.cursor ?_), Cursor.size_skipGroup_lt hsne,
        Cursor.size_skipGroup_lt htne⟩
      rwa [show s.cursor.peek? = some a from hpeek]
    · exact .again ⟨h.move hnext, Cursor.size_next_lt hsne, Cursor.size_next_lt htne⟩

/-- A loop inside the member ends as its last round does. -/
theorem rounds {Q : Reading → Reading → Prop} {round : Reading → Round Reading Reading} (h : Inside rest s t)
    (hround : ∀ {s t : Reading}, Inside rest s t → Round.Rel (Inside rest) Q (round s) (round t))
    (hsize : ∀ {s s' : Reading}, s.stalled = false → round s = .again s' → s'.size < s.size) :
    Q (CSharpStyle.rounds size round stall s) (CSharpStyle.rounds size round stall t) :=
  rounds_rel (fun h => (hround h).and (hsize h.moving.1) (hsize h.moving.2)) h

/-- Recovery ends right behind the `;`. -/
theorem recover (h : Inside rest s t) : Behind rest s.recover t.recover :=
  rounds_rel (fun h' => h'.recoverRound) h

theorem report_recover (h : Inside rest s t) {defect : Defect} (hdefect : defect.kind ≠ .unclosedScope) :
    Passage rest (s.report defect).recover (t.report defect).recover :=
  .behind (h.report hdefect).recover

end Inside

namespace Spent

theorem peek_eq (h : s.Spent) : s.peek? = none := by
  rw [peek?, Cursor.peek?, show s.cursor.ahead = [] from h.ahead]
  rfl

theorem sees (h : s.Spent) (mark : String) : s.sees mark = false := by
  rw [Reading.sees, Cursor.sees, show s.cursor.peek? = none from h.peek_eq]
  rfl

theorem eat? (h : s.Spent) (mark : String) : s.eat? mark = none := by
  rw [Reading.eat?, Cursor.eat?, show s.cursor.sees mark = false from h.sees mark]
  rfl

theorem seesKeyword (h : s.Spent) (word : String) : s.seesKeyword word = false := by
  rw [Reading.seesKeyword, Cursor.seesKeyword, show s.cursor.peek? = none from h.peek_eq]
  rfl

theorem report (h : s.Spent) (defect : Defect) : (s.report defect).Spent := ⟨h.ahead, h.moving⟩

theorem require (h : s.Spent) (mark : String) (defect : Defect) : s.require mark defect = s.report defect := by
  rw [Reading.require, h.eat?]

theorem recover (h : s.Spent) : s.recover = s := by
  refine rounds_of_done ?_
  rw [recoverRound, h.peek_eq]

end Spent

theorem Lost.openScope (h : Lost rest s t) (kind : ScopeKind) (name : Option String) (parent : ScopeId) :
    Lost rest (s.openScope kind name parent).2 (t.openScope kind name parent).2 where
  spent := ⟨h.spent.ahead, h.spent.moving⟩
  alike hrest := by
    obtain ⟨hspent, hentries⟩ := h.alike hrest
    exact ⟨⟨hspent.ahead, hspent.moving⟩, hentries⟩

/-- A reader that does nothing at the end of the file but report a defect keeps readings lost. -/
theorem Lost.report (h : Lost rest s t) (defect : Defect) {s' t' : Reading}
    (hs : s.Spent → s' = s.report defect) (ht : t.Spent → t' = t.report defect) : Lost rest s' t' where
  spent := by
    rw [ht h.spent]
    exact h.spent.report defect
  alike hrest := by
    obtain ⟨hspent, hentries⟩ := h.alike hrest
    rw [hs hspent, ht h.spent]
    exact ⟨hspent.report defect, hentries⟩

end Reading

end CSharpStyle
