import CSharpStyle.Proofs.CoreGrammar.Words

/-!
# Readings without defects

As long as no defect was found, a reading is known by the tokens ahead and its outline. What was consumed before decides
nothing more in a core program.

* `Reading.Clean`: the tokens ahead and the outline of a reading without defects.
* `Clean.header` and `Clean.typeWord`: the readers of modifiers and of types that are single words.
* `Clean.rounds_again`: a loop that reads something and goes on.
-/

namespace CSharpStyle

/-- All tokens of the file. -/
def Cursor.tokens (c : Cursor) : List Token := c.before.reverse ++ c.ahead

namespace Reading

open Token CoreGrammar

/-- No defect was found so far. -/
structure Clean (ahead : List Token) (o : Outline) (s : Reading) : Prop where
  ahead : s.ahead = ahead
  outline : s.outline = o
  errors : s.errors = #[]
  moving : s.stalled = false

namespace Clean

variable {s : Reading} {t u : Token} {ahead rest : List Token} {o o' : Outline}

/-- What the tokens ahead decide does not depend on the outline. -/
theorem toAt (h : s.Clean ahead o) : s.At ahead s.names := ⟨h.ahead, rfl, h.errors, h.moving⟩

theorem next (h : s.Clean (t :: rest) o) : s.next.Clean rest o :=
  ⟨congrArg List.tail h.ahead, h.outline, h.errors, h.moving⟩

theorem tokens_next (h : s.Clean (t :: rest) o) : s.next.cursor.tokens = s.cursor.tokens :=
  Cursor.Over.next rfl fun hnil => List.cons_ne_nil t rest (h.ahead.symm.trans hnil)

theorem cursor (h : s.Clean ahead o) {c : Cursor} (hc : c.ahead = rest) : Clean rest o { s with cursor := c } :=
  ⟨hc, h.outline, h.errors, h.moving⟩

theorem size (h : s.Clean ahead o) : s.size = ahead.length := congrArg List.length h.ahead

theorem position (h : s.Clean (t :: rest) o) : s.position = t.start := by
  rw [Reading.position, show s.cursor.ahead = t :: rest from h.ahead]

theorem second (h : s.Clean (t :: u :: rest) o) : s.cursor.second? = some u :=
  congrArg (fun ahead => ahead.tail.head?) h.ahead

theorem seesSecond (h : s.Clean (t :: u :: rest) o) (mark : String) :
    s.cursor.seesSecond mark = u.isPunctuation mark := by
  rw [Cursor.seesSecond, h.second]
  rfl

theorem declare (h : s.Clean ahead o) (scope : ScopeId) (d : Declaration) :
    (s.declare scope d).Clean ahead (o.declare scope d) :=
  ⟨h.ahead, congrArg (·.declare scope d) h.outline, h.errors, h.moving⟩

theorem openScope (h : s.Clean ahead o) (kind : ScopeKind) (name : Option String) (parent : ScopeId) :
    (s.openScope kind name parent).1 = (o.addScope kind name none parent).1 ∧
      (s.openScope kind name parent).2.Clean ahead (o.addScope kind name none parent).2 := by
  obtain ⟨hahead, rfl, herrors, hmoving⟩ := h
  exact ⟨rfl, hahead, rfl, herrors, hmoving⟩

theorem openType (h : s.Clean ahead o) (kind : TypeKind) (name : String) (parent : ScopeId) :
    (s.openType kind name parent).1 = (o.addScope .typeBody (some name) (some kind) parent).1 ∧
      (s.openType kind name parent).2.Clean ahead (o.addScope .typeBody (some name) (some kind) parent).2 := by
  obtain ⟨hahead, rfl, herrors, hmoving⟩ := h
  exact ⟨rfl, hahead, rfl, herrors, hmoving⟩

theorem newGroup (h : s.Clean ahead o) : s.newGroup.1 = o.newGroup.1 ∧ s.newGroup.2.Clean ahead o.newGroup.2 := by
  obtain ⟨hahead, rfl, herrors, hmoving⟩ := h
  exact ⟨rfl, hahead, rfl, herrors, hmoving⟩

/-- A mark that is not next is not eaten. -/
theorem eat_none (h : s.Clean rest o) {mark : String} (hrest : ∀ t ∈ rest.head?, t.isPunctuation mark = false) :
    s.eat? mark = none := by
  refine eat_none_of_sees ?_
  cases rest with
  | nil => rw [Reading.sees, Cursor.sees, show s.cursor.peek? = none from congrArg List.head? h.ahead]; rfl
  | cons t rest => exact (h.toAt.sees mark).trans (hrest t rfl)

/-- A type that is a single word ends in front of a token that cannot go on with it. -/
theorem typeWord (h : s.Clean (t :: u :: rest) o) (ht : t.isName || t.isBuiltInType)
    (hparen : t.isPunctuation "(" = false)
    (hu : ∀ mark ∈ ["<", ".", "::", "?", "*", "["], u.isPunctuation mark = false) :
    s.cursor.type? = some (t.text == "var", s.next.cursor) := by
  obtain ⟨⟨before, ahead⟩, outline, errors, stalled⟩ := s
  cases (show ahead = t :: u :: rest from h.ahead)
  exact type?_word_eq ht hparen hu before rest

/-- The modifiers in front of two words are read, if the first word is none. -/
theorem header {next name : Token} {p : Prefix next} (h : s.Clean (p.tokens ++ next :: name :: rest) o)
    (hnext : next.kind ≠ .punctuation) (hname : name.kind ≠ .punctuation) (hend : isModifier next name = false) :
    ∃ u : Reading, s.header = (⟨p.modifiers, false⟩, u) ∧ u.Clean (next :: name :: rest) o := by
  obtain ⟨d, hd, hread⟩ := Header.readOn_prefix {} p.chain h.ahead hnext hname hend
  refine ⟨{ s with cursor := d }, ?_, h.cursor hd⟩
  rw [Reading.header, Header.read, hread]
  rfl

/-- A reader that comes nearer to the end needs no guard. -/
theorem progress (h : s.Clean ahead o) (read : Reading → Reading) (hread : (read s).Clean rest o')
    (hless : rest.length < ahead.length) : s.progress read = read s :=
  progress_of_size_lt (by rwa [h.size, hread.size])

/-- A loop goes on behind what a round of it read. -/
theorem rounds_again {ρ : Type} {round : Reading → Round Reading ρ} {stalled : Reading → ρ} {v : Reading}
    (h : s.Clean ahead o) (hround : round s = .again v) (hv : v.Clean rest o') (hless : rest.length < ahead.length) :
    rounds Reading.size round stalled s = rounds Reading.size round stalled v :=
  rounds_of_again hround (by rwa [h.size, hv.size])

end Clean

end Reading

end CSharpStyle
