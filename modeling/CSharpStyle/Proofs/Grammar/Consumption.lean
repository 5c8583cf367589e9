import CSharpStyle.Proofs.Correspondence.Invariant

/-!
# Reading comes to an end behind the last token

However malformed a file is, reading it ends, has then consumed every token, and never looked for a token or a piece
of the tokens where there is none.

* `Reading.stalled` is set where a loop goes round, or a reader reads again, without a token consumed in between. That
  it is never set says that the recursions end by themselves: their guards are never needed (`Statement.read_eq` and
  its like state the recursions without them).
* `Cursor.next` counts a token that is not there when it moves behind the last one. That the consumed tokens are at
  the end those of the file says that it never did.
* `slice?` is the piece of a list between two indices, if they are in bounds.
-/

namespace CSharpStyle

/-- The tokens from index `start` up to index `stop`, which have to be in order and in bounds. -/
def slice? (tokens : List Token) (start stop : Nat) : Option (List Token) :=
  if start ≤ stop ∧ stop ≤ tokens.length then some ((tokens.drop start).take (stop - start)) else none

namespace Cursor

/-- The index of the next token. -/
def index (c : Cursor) : Nat := c.before.length

namespace Over

variable {tokens : List Token} {c d : Cursor}

/-- The tokens between a cursor and a later one are a slice of the tokens of the file. -/
theorem slice?_eq (hc : c.Over tokens) (hd : d.Over tokens) (hsize : d.size ≤ c.size) :
    slice? tokens c.index d.index = some (c.upTo d) := by
  have hcindex := hc.length_before
  have hdindex := hd.length_before
  have hcle := hc.size_le
  have hahead : c.ahead = tokens.drop c.before.length := by rw [hcindex, ← hc.ahead_eq_drop]
  have hlength : d.before.length - c.before.length = c.size - d.size := by omega
  rw [slice?, index, index, if_pos ⟨by omega, by omega⟩, upTo, ← hahead, hlength]
  rfl

/-- What is decided before anything is consumed never looks behind the last token. -/
theorem lockstep (tokens : List Token) (n : Nat) :
    Lockstep Eq fun c d => (c = d ∧ c.Over tokens) ∧ c.size ≤ n :=
  (Correspondence.invariant tokens (fun _ => True) fun _ => id).lockstep n

theorem type? (hc : c.Over tokens) {isVar : Bool} (h : c.type? = some (isVar, d)) : d.Over tokens := by
  rcases rel_cases ((lockstep tokens c.size).type? ⟨⟨rfl, hc⟩, Nat.le_refl _⟩) with
    ⟨hnone, -⟩ | ⟨p, q, hsome, -, -, hover⟩
  · rw [h] at hnone; cases hnone
  · rw [h] at hsome; cases hsome; exact hover.1.2

theorem localFunctionName? (hc : c.Over tokens) {name : Token} (h : c.localFunctionName? = some (name, d)) :
    d.Over tokens := by
  rcases rel_cases ((lockstep tokens c.size).localFunctionName? ⟨⟨rfl, hc⟩, Nat.le_refl _⟩) with
    ⟨hnone, -⟩ | ⟨p, q, hsome, -, -, hover⟩
  · rw [h] at hnone; cases hnone
  · rw [h] at hsome; cases hsome; exact hover.1.2

theorem localDeclaration? (hc : c.Over tokens) {context : LocalContext} {beginning : LocalBeginning}
    (h : c.localDeclaration? context = some (beginning, d)) : d.Over tokens := by
  rcases rel_cases ((lockstep tokens c.size).localDeclaration? ⟨⟨rfl, hc⟩, Nat.le_refl _⟩ context) with
    ⟨hnone, -⟩ | ⟨p, q, hsome, -, -, hover⟩
  · rw [h] at hnone; cases hnone
  · rw [h] at hsome; cases hsome; exact hover.1.2

end Over

end Cursor

namespace Initializer

/-- The bracketed group that begins an initializer, without its brackets, and what follows it are slices of the
initializer. -/
theorem slice?_of_splitGroup? {tokens group behind : List Token}
    (h : splitGroup? 0 tokens = some (group, behind)) :
    slice? tokens 1 (group.length - 1) = some group.tail.dropLast ∧
      slice? tokens group.length tokens.length = some behind := by
  have happend := append_of_splitGroup? h
  have hlength : 2 ≤ group.length := length_of_splitGroup? h
  have hle : group.length ≤ tokens.length := by rw [← happend, List.length_append]; omega
  rw [slice?, slice?, if_pos ⟨by omega, by omega⟩, if_pos ⟨hle, Nat.le_refl _⟩]
  constructor
  · have htail : tokens.drop 1 = group.tail ++ behind := by
      rw [List.drop_one, ← happend, List.tail_append_of_ne_nil (List.ne_nil_of_length_pos (by omega))]
    rw [htail, List.dropLast_eq_take, List.take_append_of_le_length (by rw [List.length_tail]; omega),
      List.length_tail]
  · rw [← happend, List.drop_left, List.take_of_length_le (by rw [List.length_append]; omega)]

end Initializer

namespace Reading

variable {tokens : List Token} {s : Reading}

/-- An initializer is classified by a slice of the tokens of the file. -/
theorem Sound.initializer (h : s.Sound tokens fun _ => True) (scope : ScopeId) (stops : List String) :
    let after := Reading.initializer Statement.read scope stops s
    after.2.Sound tokens (fun _ => True) ∧
      ∃ piece, slice? tokens s.cursor.index after.2.cursor.index = some piece ∧
        after.1 = Initializer.classify piece := by
  have hskip := Correspondence.skipExpression (Correspondence.statements s.size) (h.related fun _ => id) (i := scope)
    rfl (Nat.le_refl _) stops
  have hafter := sound_of_related hskip.related
  exact ⟨hafter, _, h.inside.slice?_eq hafter.inside hskip.size_le, rfl⟩

/-- The file is read to its end. -/
theorem sound_file (tokens : List Token) :
    (NamespaceBody.file.read (.ofTokens tokens)).Sound tokens (fun _ => True) ∧
      (NamespaceBody.file.read (.ofTokens tokens)).cursor.ahead = [] := by
  have hstart : (Reading.ofTokens tokens).Sound tokens fun _ => True := ⟨rfl, rfl, trivial⟩
  obtain ⟨hleads, hall⟩ := Correspondence.namespaceBody (hstart.related fun _ => id) NamespaceBody.file.alike_self
  exact ⟨sound_of_related hleads.related, hall rfl⟩

end Reading

/-- What holds of reading a file with the given tokens. -/
structure Consumed (tokens : List Token) : Prop where
  /-- No loop goes round and no reader reads again without a token consumed in between. -/
  moving : (NamespaceBody.file.read (.ofTokens tokens)).stalled = false
  /-- So the recursions satisfy their equations without the guards that make them end. -/
  recursion {s : Reading} (hs : s.stalled = false) :
    (∀ scope, Statement.read scope s = Reading.statementAt Statement.read scope s) ∧
    (∀ scope header, TypeDeclaration.read scope header s =
      Reading.typeDeclarationAt TypeDeclaration.read scope header s) ∧
    ∀ body : NamespaceBody,
      body.read s = rounds Reading.size (Reading.namespaceRound NamespaceBody.read body) Reading.stall s
  /-- The tokens of the file are consumed, each once and nothing else. -/
  cursor : (NamespaceBody.file.read (.ofTokens tokens)).cursor = ⟨tokens.reverse, []⟩
  /-- Looking ahead for a type or a local declaration stays inside the file as well. -/
  lookahead {c : Cursor} (hc : c.Over tokens) :
    (∀ {isVar : Bool} {d : Cursor}, c.type? = some (isVar, d) → d.Over tokens) ∧
    (∀ {name : Token} {d : Cursor}, c.localFunctionName? = some (name, d) → d.Over tokens) ∧
    ∀ {context : LocalContext} {beginning : LocalBeginning} {d : Cursor},
      c.localDeclaration? context = some (beginning, d) → d.Over tokens
  /-- The tokens of an initializer are a slice in bounds, wherever one is read. -/
  initializer {s : Reading} (hs : s.Sound tokens fun _ => True) (scope : ScopeId) (stops : List String) :
    ∃ piece, slice? tokens s.cursor.index (Reading.initializer Statement.read scope stops s).2.cursor.index =
        some piece ∧
      (Reading.initializer Statement.read scope stops s).1 = Initializer.classify piece
  /-- So are the pieces of an initializer that its classification looks at. -/
  group {piece group behind : List Token} (h : Initializer.splitGroup? 0 piece = some (group, behind)) :
    slice? piece 1 (group.length - 1) = some group.tail.dropLast ∧
      slice? piece group.length piece.length = some behind

theorem consumed_file (tokens : List Token) : Consumed tokens := by
  obtain ⟨hsound, hahead⟩ := Reading.sound_file tokens
  refine ⟨hsound.moving, fun hs => ⟨Statement.read_eq hs, TypeDeclaration.read_eq hs, NamespaceBody.read_eq hs⟩,
    ?_, fun hc => ⟨hc.type?, hc.localFunctionName?, hc.localDeclaration?⟩,
    fun hs scope stops => (hs.initializer scope stops).2, Initializer.slice?_of_splitGroup?⟩
  have hover := hsound.inside
  rw [Cursor.Over, hahead, List.append_nil] at hover
  generalize (NamespaceBody.file.read (.ofTokens tokens)).cursor = c at hahead hover
  obtain ⟨before, ahead⟩ := c
  cases hahead
  rw [← hover, List.reverse_reverse]

end CSharpStyle
