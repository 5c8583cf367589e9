import CSharpStyle.Grammar.Iteration
import CSharpStyle.Lexical.Token

/-!
# Cursor

A cursor splits the significant tokens of a file into those already consumed and those ahead. It only moves
forward; a reader that gives up returns no cursor, and the caller goes on from its own.
-/

namespace CSharpStyle

namespace Token

/-- Contextual keywords can be names. -/
def isName (t : Token) : Bool :=
  t.isIdentifier || (t.kind == .keyword && Keyword.isContextual t.text)

def isBuiltInType (t : Token) : Bool := t.kind == .keyword && Keyword.isBuiltInType t.text

def isOpener (t : Token) : Bool :=
  t.kind == .punctuation && (t.text == "(" || t.text == "[" || t.text == "\x7b")

def isCloser (t : Token) : Bool :=
  t.kind == .punctuation && (t.text == ")" || t.text == "]" || t.text == "\x7d")

end Token

/-- The bracket that closes `opener`. -/
def closing (opener : String) : String :=
  if opener = "(" then ")" else if opener = "[" then "]" else "\x7d"

structure Cursor where
  /-- The consumed tokens, the last one first. -/
  before : List Token
  ahead : List Token
  deriving DecidableEq, Repr, Inhabited

namespace Cursor

def peek? (c : Cursor) : Option Token := c.ahead.head?

def second? (c : Cursor) : Option Token := c.ahead.tail.head?

/-- The number of tokens ahead. -/
def size (c : Cursor) : Nat := c.ahead.length

/-- Moves one token further. Behind the last token there is none to move over, and the cursor then counts a token
as consumed that the file does not have. -/
def next (c : Cursor) : Cursor := ⟨c.ahead.headD default :: c.before, c.ahead.tail⟩

/-- The next token is the punctuation mark `mark`. -/
def sees (c : Cursor) (mark : String) : Bool := c.peek?.any (·.isPunctuation mark)

/-- The token after the next one is the punctuation mark `mark`. -/
def seesSecond (c : Cursor) (mark : String) : Bool := c.second?.any (·.isPunctuation mark)

def seesKeyword (c : Cursor) (word : String) : Bool := c.peek?.any (·.isKeyword word)

def seesName (c : Cursor) : Bool := c.peek?.any (·.isName)

/-- The cursor behind the mark `mark`. -/
def eat? (c : Cursor) (mark : String) : Option Cursor := if c.sees mark then some c.next else none

/-- The cursor behind the keyword `word`. -/
def eatKeyword? (c : Cursor) (word : String) : Option Cursor :=
  if c.seesKeyword word then some c.next else none

/-- The next token and the cursor behind it, if it is a name. -/
def name? (c : Cursor) : Option (Token × Cursor) :=
  match c.peek? with
  | some t => if t.isName then some (t, c.next) else none
  | none => none

def skipName (c : Cursor) : Cursor := if c.seesName then c.next else c

def skipKeyword (c : Cursor) (word : String) : Cursor := (c.eatKeyword? word).getD c

/-- Consumes one of the two keywords if it is next. -/
def skipEither (c : Cursor) (word other : String) : Cursor := (c.eatKeyword? word).getD (c.skipKeyword other)

/-- A step that fails or consumes at least one token. -/
structure Stride where
  step? : Cursor → Option Cursor
  consumes : ∀ {c d : Cursor}, step? c = some d → d.size < c.size

/-- Takes steps as long as they succeed. -/
def skipMany (stride : Stride) (c : Cursor) : Cursor :=
  match _h : stride.step? c with
  | some d => skipMany stride d
  | none => c
termination_by c.size
decreasing_by exact stride.consumes ‹_›

theorem skipMany_of_some {stride : Stride} {c d : Cursor} (h : stride.step? c = some d) :
    c.skipMany stride = d.skipMany stride := by
  rw [skipMany]
  split <;> simp_all

theorem skipMany_of_none {stride : Stride} {c : Cursor} (h : stride.step? c = none) : c.skipMany stride = c := by
  rw [skipMany]
  split <;> simp_all

/-- Consumes tokens as long as they satisfy `p`. -/
def skipWhile (p : Token → Bool) (c : Cursor) : Cursor :=
  ⟨(c.ahead.takeWhile p).reverse ++ c.before, c.ahead.dropWhile p⟩

/-- Consumes tokens up to and including the first mark `mark`, or all if there is none. -/
def skipPast (mark : String) (c : Cursor) : Cursor :=
  let stop := c.skipWhile (!·.isPunctuation mark)
  if stop.ahead.isEmpty then stop else stop.next

/-- Consumes tokens until as many brackets are closed as were opened, `depth` of them before. -/
def skipBrackets : Nat → List Token → List Token → Cursor
  | _, before, [] => ⟨before, []⟩
  | depth, before, t :: ahead =>
    if t.isOpener then skipBrackets (depth + 1) (t :: before) ahead
    else if t.isCloser then
      if depth ≤ 1 then ⟨t :: before, ahead⟩ else skipBrackets (depth - 1) (t :: before) ahead
    else skipBrackets depth (t :: before) ahead

/-- Consumes the bracketed group that begins here. The kinds of the brackets are not compared. -/
def skipGroup (c : Cursor) : Cursor := skipBrackets 0 c.before c.ahead

/-- Consumes a token, or a whole group where a parenthesis opens. -/
def nextOrGroup (c : Cursor) : Cursor := if c.sees "(" then c.skipGroup else c.next

theorem size_skipBrackets_le (depth : Nat) (before ahead : List Token) :
    (skipBrackets depth before ahead).size ≤ ahead.length := by
  fun_induction skipBrackets depth before ahead <;> simp_all [size] <;> omega

theorem size_skipGroup_lt {c : Cursor} (h : c.ahead ≠ []) : c.skipGroup.size < c.size := by
  obtain ⟨before, _ | ⟨t, ahead⟩⟩ := c
  · exact absurd rfl h
  · have hnested (depth : Nat) := size_skipBrackets_le depth (t :: before) ahead
    simp only [skipGroup, skipBrackets, size, List.length_cons] at hnested ⊢
    split
    · exact Nat.lt_succ_of_le (hnested _)
    · split
      · simp
      · exact Nat.lt_succ_of_le (hnested _)

theorem size_next_lt {c : Cursor} (h : c.ahead ≠ []) : c.next.size < c.size := by
  obtain ⟨before, _ | ⟨t, ahead⟩⟩ := c
  · exact absurd rfl h
  · simp [next, size]

theorem size_next_le (c : Cursor) : c.next.size ≤ c.size := by
  simp [next, size]

theorem size_skipPast_lt {mark : String} {c : Cursor} (h : c.ahead ≠ []) : (c.skipPast mark).size < c.size := by
  rw [skipPast]
  have hdrop := (List.dropWhile_suffix (l := c.ahead) (!·.isPunctuation mark)).length_le
  have hpos := List.length_pos_iff.mpr h
  split
  · rename_i hstop
    simp only [skipWhile, List.isEmpty_iff] at hstop
    simpa [size, skipWhile, hstop] using hpos
  · rename_i hstop
    have := size_next_lt (c := c.skipWhile (!·.isPunctuation mark)) (by simpa using hstop)
    exact Nat.lt_of_lt_of_le this hdrop

theorem size_nextOrGroup_lt {c : Cursor} (h : c.ahead ≠ []) : c.nextOrGroup.size < c.size := by
  unfold nextOrGroup
  split
  · exact size_skipGroup_lt h
  · exact size_next_lt h

theorem ahead_ne_nil_of_peek? {c : Cursor} {t : Token} (h : c.peek? = some t) : c.ahead ≠ [] := by
  intro hnil
  simp [peek?, hnil] at h

theorem ahead_ne_nil_of_sees {c : Cursor} {mark : String} (h : c.sees mark) : c.ahead ≠ [] := by
  intro hnil
  simp [sees, peek?, hnil] at h

theorem size_of_eat? {c d : Cursor} {mark : String} (h : c.eat? mark = some d) : d.size < c.size := by
  unfold eat? at h
  split at h
  · rename_i hsees
    cases h
    exact size_next_lt (ahead_ne_nil_of_sees hsees)
  · simp at h

theorem size_of_name? {c d : Cursor} {t : Token} (h : c.name? = some (t, d)) : d.size < c.size := by
  unfold name? at h
  split at h
  · rename_i hpeek
    split at h
    · cases h
      exact size_next_lt (ahead_ne_nil_of_peek? hpeek)
    · simp at h
  · simp at h

theorem size_skipName_le (c : Cursor) : c.skipName.size ≤ c.size := by
  unfold skipName
  split
  · exact size_next_le c
  · exact Nat.le_refl _

/-- A token that does not satisfy `stop`, or the parenthesised group that it opens. -/
def strideUntil (stop : Token → Bool) : Stride where
  step? c :=
    match c.peek? with
    | some t => if stop t then none else some c.nextOrGroup
    | none => none
  consumes {c d} h := by
    split at h
    · rename_i ht
      split at h
      · simp at h
      · cases h; exact size_nextOrGroup_lt (ahead_ne_nil_of_peek? ht)
    · simp at h

/-- Moves to the next token that satisfies `stop`, across parenthesised groups. -/
def skipUntil (stop : Token → Bool) (c : Cursor) : Cursor := c.skipMany (strideUntil stop)

/-- A later cursor has not moved from `c`. -/
def isStill (c later : Cursor) : Bool := later.peek? == c.peek? && later.ahead.length == c.ahead.length

/-- The tokens between a cursor and a later one. -/
def upTo (c later : Cursor) : List Token := c.ahead.take (c.ahead.length - later.ahead.length)

end Cursor

end CSharpStyle
