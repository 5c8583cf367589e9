import CSharpStyle.Proofs.Lexical.Delimited
import CSharpStyle.Proofs.Lexical.Tiling
import Mathlib.Data.List.TakeWhile

/-!
# Where a directive may stand

A `#` begins a directive where only white space precedes it on its line.  The lexer does not look back: it keeps a flag,
which white space alone can set.  The flag is right because a lexeme other than white space either leaves something on
its last line that is not white space, or ends where the line or the text ends (`Lexeme.not_blankLine_or_atLineEnd`).
In the latter case the flag may be wrong, but nothing asks for it before the end of the line has set it.

* `Lexer.Tracks.next`: each step keeps the flag right.
* `LexicalItem.exists_directive_iff`: the items that begin with `#`.
-/

namespace CSharpStyle

/-- Behind the last end of a line there is only white space. -/
def BlankLine (before : List Char) : Prop :=
  ∀ c ∈ before.reverse.takeWhile (· != '\n'), Unicode.isWhitespace c

/-! ### The line that a text leaves -/

section

variable {before taken : List Char}

theorem blankLine_of_isWhitespace (h : ∀ c ∈ taken, Unicode.isWhitespace c) : BlankLine taken := by
  intro c hc
  have hmem := (List.takeWhile_subset _) hc
  exact h c (List.mem_reverse.mp hmem)

/-- A text without the end of a line is all on one line. -/
theorem takeWhile_reverse_line (h : '\n' ∉ taken) : taken.reverse.takeWhile (· != '\n') = taken.reverse := by
  rw [List.takeWhile_eq_self_iff]
  intro c hc
  rw [bne_iff_ne]
  rintro rfl
  exact h (List.mem_reverse.mp hc)

/-- A character that is not white space stays on its line. -/
theorem not_blankLine_cons {c : Char} (hc : Unicode.isWhitespace c = false) (htaken : '\n' ∉ taken) :
    ¬ BlankLine (c :: taken) := by
  have hne : '\n' ≠ c := by
    rintro rfl
    exact absurd hc (by decide)
  have hline : '\n' ∉ c :: taken := List.not_mem_cons_of_ne_of_not_mem hne htaken
  intro h
  rw [BlankLine, takeWhile_reverse_line hline] at h
  rw [h c (by simp)] at hc
  cases hc

/-- Without the end of a line a text goes on with the line that precedes it. -/
theorem blankLine_append_iff : BlankLine (before ++ taken) ↔ BlankLine taken ∧ ('\n' ∉ taken → BlankLine before) := by
  unfold BlankLine
  rw [List.reverse_append, List.takeWhile_append]
  by_cases htaken : '\n' ∈ taken
  · have hline : (taken.reverse.takeWhile (· != '\n')).length ≠ taken.reverse.length := by
      intro hlength
      have hself := (List.takeWhile_prefix (l := taken.reverse) (· != '\n')).eq_of_length hlength
      have hne := List.takeWhile_eq_self_iff.mp hself '\n' (List.mem_reverse.mpr htaken)
      exact bne_iff_ne.mp hne rfl
    rw [if_neg hline]
    simp [htaken]
  · rw [takeWhile_reverse_line htaken, if_pos rfl, List.forall_mem_append]
    simp [htaken]

end

namespace Opened

/-- Strings, character literals and comments, which end with a delimiter of their own. -/
def isDelimited : Opened → Bool
  | anyCharacter | brace => false
  | regularString | verbatimString | rawString _ _ | interpolatedString _ | characterLiteral | blockComment => true

/-- A delimiter has to come at the end: something that is delimited is open outermost, or the second character of a
delimiter comes next. -/
def AwaitsDelimiter (stack : List Opened) (text : List Char) : Prop :=
  (∃ o, stack.getLast? = some o ∧ o.isDelimited) ∨ stack = [anyCharacter] ∧ text.head? = some '/'

theorem awaitsDelimiter_of_step {o : Opened} (ho : o.isDelimited) {c : Char} {ahead : List Char} {opened : List Opened}
    (h : o.step c ahead = .ok opened) :
    opened = [] ∧ c ∈ ['"', '\''] ∨ AwaitsDelimiter opened ahead := by
  have hescaping (string : Opened) (hstring : string.isDelimited) : AwaitsDelimiter (escaping string ahead) ahead := by
    unfold escaping
    grind [AwaitsDelimiter]
  have hunless (string : Opened) (hstring : string.isDelimited) :
      unlessDoubled string ahead = [] ∨ AwaitsDelimiter (unlessDoubled string ahead) ahead := by
    unfold unlessDoubled
    grind [AwaitsDelimiter]
  cases o <;> simp only [step] at h
  case anyCharacter | brace => cases ho
  case blockComment =>
    split at h <;> cases h
    · exact .inr (.inr ⟨rfl, rfl⟩)
    · exact .inr (.inl ⟨_, rfl, rfl⟩)
  all_goals grind [AwaitsDelimiter, isDelimited]

/-- What is complete ends with a delimiter. -/
theorem exists_delimiter {stack : List Opened} {text : List Char} (hstack : AwaitsDelimiter stack text)
    (h : (read stack text).fault = none) :
    ∃ front, ∃ d ∈ ['"', '\'', '/'], (read stack text).taken = front ++ [d] := by
  fun_induction read stack text with
  | case1 text => simp [AwaitsDelimiter] at hstack
  | case2 innermost outer => cases h
  | case3 innermost outer c ahead fault hstep => cases h
  | case4 innermost outer c ahead opened hstep ih =>
    -- Either the delimiter comes behind `c`, or `c` is it and nothing is open any more.
    suffices hlast : AwaitsDelimiter (opened ++ outer) ahead ∨ opened ++ outer = [] ∧ c ∈ ['"', '\'', '/'] by
      rcases hlast with hlast | ⟨hclosed, hc⟩
      · obtain ⟨front, d, hd, hfront⟩ := ih hlast h
        exact ⟨c :: front, d, hd, congrArg (c :: ·) hfront⟩
      · rw [hclosed]
        exact ⟨[], c, hc, by simp [read, Extent.cons]⟩
    rcases hstack with ⟨o, ho, hdelimited⟩ | ⟨hstack, hslash⟩
    · cases outer with
      | nil =>
        cases ho
        rcases awaitsDelimiter_of_step hdelimited hstep with ⟨rfl, hc⟩ | hopened
        · exact .inr ⟨rfl, List.mem_append_left ['/'] hc⟩
        · rw [List.append_nil]
          exact .inl hopened
      | cons next outer =>
        refine .inl (.inl ⟨o, ?_, hdelimited⟩)
        rw [List.getLast?_append_of_ne_nil opened (List.cons_ne_nil next outer), ← ho, List.getLast?_cons_cons]
    · cases hstack
      cases hslash
      cases hstep
      exact .inr ⟨rfl, by decide⟩

end Opened

namespace Lexeme

theorem isDelimited_of_opening {kind : TokenKind} {stack : List Opened} {text : List Char}
    (h : opening? text = some (kind, stack)) : ∃ o, stack.getLast? = some o ∧ o.isDelimited := by
  have hquotes (text : List Char) (before : List Opened) (string : Opened) (hstring : string.isDelimited) :
      ∃ o, (openingQuotes text (before ++ [string])).getLast? = some o ∧ o.isDelimited := by
    by_cases hraw : 3 ≤ (text.takeWhile (· == '"')).length
    · rw [openingQuotes, if_pos hraw]
      exact ⟨_, List.getLast?_concat, rfl⟩
    · rw [openingQuotes, if_neg hraw]
      exact ⟨_, List.getLast?_concat, hstring⟩
  have hinterpolated (text : List Char) : ∃ o, (openingInterpolated text).getLast? = some o ∧ o.isDelimited := by
    obtain ⟨o, ho, hdelimited⟩ := hquotes (text.dropWhile fun c => c == '$' || c == '@')
      (List.replicate ((text.dropWhile fun c => c == '$' || c == '@').take 1).length .anyCharacter)
      (.interpolatedString ((text.takeWhile fun c => c == '$' || c == '@').contains '@')) rfl
    refine ⟨o, ?_, hdelimited⟩
    rw [openingInterpolated, List.getLast?_append, ho]
    rfl
  unfold opening? at h
  split at h <;> cases h
  case h_1 | h_3 => exact ⟨_, rfl, rfl⟩
  case h_2 => exact hquotes _ [.anyCharacter] .regularString rfl
  case h_8 =>
    unfold Opened.characterBody
    split <;> exact ⟨_, rfl, rfl⟩
  all_goals exact hinterpolated _

theorem newline_notMem_number (hexadecimal : Bool) (previous : Char) (text : List Char) :
    '\n' ∉ (splitNumber hexadecimal previous text).1 := by
  fun_induction splitNumber hexadecimal previous text with
  | case1 | case3 => exact List.not_mem_nil
  | case2 previous c ahead hcontinues digits rest hsplit ih =>
    rw [hsplit] at ih
    refine List.not_mem_cons_of_ne_of_not_mem ?_ ih
    rintro rfl
    simp [continuesNumber] at hcontinues

theorem newline_notMem_word (ahead : List Char) : '\n' ∉ ahead.takeWhile continuesIdentifier := by
  intro hmem
  have hcontinues := List.mem_takeWhile_imp hmem
  revert hcontinues
  decide

theorem newline_notMem_operator {c : Char} {ahead operator : List Char}
    (h : operators.find? (·.isPrefixOf (c :: ahead)) = some operator) :
    '\n' ∉ ahead.take (operator.length - 1) := by
  have hoperators : ∀ operator ∈ operators, operator ≠ [] ∧ '\n' ∉ operator := by decide
  obtain ⟨hne, hnewline⟩ := hoperators operator (List.mem_of_find?_eq_some h)
  have hprefix : operator <+: c :: ahead := List.isPrefixOf_iff_prefix.mp (by simpa using List.find?_some h)
  cases operator with
  | nil => exact absurd rfl hne
  | cons d operator =>
    obtain ⟨rfl, htail⟩ := List.cons_prefix_cons.mp hprefix
    have htake : ahead.take operator.length = operator := (List.prefix_iff_eq_take.mp htail).symm
    rw [List.length_cons, Nat.add_sub_cancel, htake]
    exact fun hmem => hnewline (List.mem_cons_of_mem _ hmem)

/-- A lexeme that is not white space is not all white space on its last line, unless this line ends behind it. -/
theorem not_blankLine_or_atLineEnd (atLineStart : Bool) {c : Char} (hc : Unicode.isWhitespace c = false)
    (ahead : List Char) :
    ¬ BlankLine (ofText atLineStart c ahead).taken ∨ AtLineEnd (ofText atLineStart c ahead).rest := by
  have hrest : AtLineEnd (ahead.dropWhile (!isLineEnd ·)) := by
    intro d hd
    have hnot := List.head?_dropWhile_not (!isLineEnd ·) ahead
    rw [hd] at hnot
    simpa [isLineEnd] using hnot
  cases hopening : opening? (c :: ahead) with
  | some opened =>
    obtain ⟨kind, stack⟩ := opened
    rw [ofText_of_opening hopening]
    cases hfault : (Opened.read stack (c :: ahead)).fault with
    | some fault => exact .inr (Opened.atLineEnd_of_fault hfault)
    | none =>
      obtain ⟨front, d, hd, htaken⟩ := Opened.exists_delimiter (.inl (isDelimited_of_opening hopening)) hfault
      have hwhite : Unicode.isWhitespace d = false := isWhitespace_delimiter (by grind)
      refine .inl fun h => ?_
      have hline : BlankLine (front ++ [d]) := htaken ▸ h
      exact not_blankLine_cons hwhite List.not_mem_nil (blankLine_append_iff.mp hline).1
  | none =>
    unfold ofText
    simp only [hc, hopening, Bool.false_eq_true, reduceIte]
    split_ifs
    · exact .inr hrest
    · exact .inr hrest
    · exact .inl (not_blankLine_cons hc (newline_notMem_word ahead))
    · exact .inl (not_blankLine_cons hc (newline_notMem_number _ c ahead))
    · exact .inl (not_blankLine_cons hc (newline_notMem_word ahead))
    · unfold punctuation
      split
      · rename_i operator hfind
        exact .inl (not_blankLine_cons hc (newline_notMem_operator hfind))
      · exact .inl (not_blankLine_cons hc List.not_mem_nil)

/-- A lexeme that does not begin with white space is not white space. -/
theorem kind_ne_whitespace (atLineStart : Bool) {c : Char} (hc : Unicode.isWhitespace c = false) (ahead : List Char) :
    (ofText atLineStart c ahead).kind ≠ .ok .whitespace := by
  cases hopening : opening? (c :: ahead) with
  | some opened =>
    obtain ⟨kind, stack⟩ := opened
    rw [ofText_of_opening hopening, delimited]
    unfold opening? at hopening
    simp only
    split at hopening <;> cases hopening <;> split <;> simp
  | none =>
    unfold ofText
    simp only [hc, hopening, Bool.false_eq_true, reduceIte]
    split_ifs
    · simp [run]
    · simp [run]
    · simp [run]
    · simp [number]
    · simp only [word, wordKind, ne_eq, Except.ok.injEq]
      split_ifs <;> simp
    · unfold punctuation
      split
      · simp
      · dsimp only
        split_ifs <;> simp

/-- A `#` is a directive or nothing. -/
theorem ofText_hash (atLineStart : Bool) (ahead : List Char) :
    ofText atLineStart '#' ahead =
      if atLineStart then run .directive (!isLineEnd ·) '#' ahead
      else ⟨['#'], ahead, .error (.unexpectedCharacter '#')⟩ := by
  cases atLineStart with
  | true => rfl
  | false => rfl

end Lexeme

namespace Lexer

/-- A lexeme keeps the flag right: white space may set it, and everything else ends with a line that is not blank or in
front of the end of a line. -/
theorem flag_of_lexeme {atLineStart : Bool} {c : Char} {ahead before : List Char}
    (h : AtLineEnd (c :: ahead) ∨ (atLineStart = true ↔ BlankLine before)) :
    AtLineEnd (Lexeme.ofText atLineStart c ahead).rest ∨
      (lineStartAfter atLineStart (Lexeme.ofText atLineStart c ahead) = true ↔
        BlankLine (before ++ (Lexeme.ofText atLineStart c ahead).taken)) := by
  cases hc : Unicode.isWhitespace c with
  | false =>
    -- The flag becomes false, and the line is not blank any more unless it ends behind the lexeme.
    have hflag : lineStartAfter atLineStart (Lexeme.ofText atLineStart c ahead) = false := by
      have hkind := Lexeme.kind_ne_whitespace atLineStart hc ahead
      unfold lineStartAfter
      split
      · contradiction
      · rfl
    rcases Lexeme.not_blankLine_or_atLineEnd atLineStart hc ahead with hline | hrest
    · refine .inr ?_
      rw [hflag, blankLine_append_iff]
      simp [hline]
    · exact .inl hrest
  | true =>
    have hlexeme : Lexeme.ofText atLineStart c ahead = .run .whitespace Unicode.isWhitespace c ahead := by
      rw [Lexeme.ofText, if_pos hc]
    have hwhite : ∀ d ∈ (Lexeme.ofText atLineStart c ahead).taken, Unicode.isWhitespace d := by
      rw [hlexeme]
      exact List.forall_mem_cons.mpr ⟨hc, fun d hd => List.mem_takeWhile_imp hd⟩
    have hflag : lineStartAfter atLineStart (Lexeme.ofText atLineStart c ahead) =
        (atLineStart || (Lexeme.ofText atLineStart c ahead).taken.contains '\n') := by
      rw [hlexeme]
      rfl
    refine .inr ?_
    rw [hflag, blankLine_append_iff]
    by_cases hnewline : '\n' ∈ (Lexeme.ofText atLineStart c ahead).taken
    · simp [hnewline, blankLine_of_isWhitespace hwhite]
    · -- White space without the end of a line does not begin with one, so that the flag was right.
      have hbefore : atLineStart = true ↔ BlankLine before := by
        refine h.resolve_left fun hline => hnewline ?_
        rw [hlexeme, hline c rfl]
        exact List.mem_cons_self
      simp [hnewline, blankLine_of_isWhitespace hwhite, hbefore]

/-- The lexer stands in the text behind `before` and knows whether its line is blank so far, unless the line ends. -/
structure Tracks (lexer : Lexer) (text before : List Char) : Prop where
  within : lexer.Within text before
  flag : AtLineEnd lexer.rest ∨ (lexer.atLineStart = true ↔ BlankLine before)

theorem tracks_ofSource (source : String) : (ofSource source).Tracks source.toList [] :=
  ⟨within_ofSource source, .inr (by simp [ofSource, BlankLine])⟩

/-- The flag stays right. -/
theorem Tracks.next {lexer after : Lexer} {item : LexicalItem} {text before : List Char}
    (h : lexer.Tracks text before) (hnext : lexer.next? = some (item, after)) :
    ∃ taken, after.Tracks text (before ++ taken) := by
  obtain ⟨c, ahead, hrest, -, rfl⟩ := exists_lexeme hnext
  have hflag := h.flag
  rw [hrest] at hflag
  refine ⟨(Lexeme.ofText lexer.atLineStart c ahead).taken, ⟨?_, h.within.isBehind.advance _⟩, flag_of_lexeme hflag⟩
  rw [List.append_assoc, Lexeme.taken_append_rest, ← hrest]
  exact h.within.append_rest

end Lexer

/-- An item that begins with `#` is a directive if there is only white space in front of it on its line, and an
unexpected character otherwise. -/
theorem LexicalItem.exists_directive_iff {source : String} {item : LexicalItem}
    (hitem : item ∈ (Lexer.ofSource source).items) (hhead : item.text.toList.head? = some '#') :
    ∃ before behind, item.StandsBetween source before behind ∧
      ((∃ t : Token, item = .token t ∧ t.kind = .directive) ↔ BlankLine before) ∧
      (¬ BlankLine before → ∃ e : LexicalError, item = .error e ∧ e.fault = .unexpectedCharacter '#') := by
  obtain ⟨lexer, after, ⟨before, htracks⟩, hnext⟩ := Lexer.exists_step
    (P := fun lexer => ∃ before, lexer.Tracks source.toList before) hitem ⟨[], Lexer.tracks_ofSource source⟩
    (fun ⟨before, htracks⟩ hnext => by
      obtain ⟨taken, hafter⟩ := htracks.next hnext
      exact ⟨before ++ taken, hafter⟩)
  have hstands := htracks.within.standsBetween hnext
  refine ⟨before, after.rest, hstands, ?_⟩
  obtain ⟨c, ahead, hrest, hitem, -⟩ := Lexer.exists_lexeme hnext
  obtain rfl : c = '#' := by
    have hsource := hstands.source_eq.trans htracks.within.append_rest.symm
    rw [List.append_assoc, hrest] at hsource
    obtain ⟨text, htext⟩ := List.head?_eq_some_iff.mp hhead
    rw [htext] at hsource
    exact (List.cons.inj (List.append_cancel_left hsource)).1.symm
  -- A `#` does not end a line, so that the flag is right where it is read.
  have hflag : lexer.atLineStart = true ↔ BlankLine before := by
    refine htracks.flag.resolve_left fun hline => ?_
    rw [hrest] at hline
    exact absurd (hline '#' rfl) (by decide)
  rw [← hflag]
  -- What is read at a `#` depends on the flag alone.
  rw [Lexeme.ofText_hash] at hitem
  subst hitem
  cases lexer.atLineStart with
  | true => exact ⟨by simp [Lexer.itemOf, Lexeme.run], by simp⟩
  | false => exact ⟨by simp [Lexer.itemOf], fun _ => ⟨_, rfl, rfl⟩⟩

/-- Behind a comment that began on another line the line is not blank. -/
theorem not_blankLine_behind_comment :
    let source := "#a\r\n/*\n*/ #b"
    let item := LexicalItem.error ⟨.unexpectedCharacter '#', "#", ⟨⟨10, 3, 4⟩, ⟨11, 3, 5⟩⟩⟩
    (item ∈ (Lexer.ofSource source).items ∧ item.text.toList.head? = some '#') ∧
      ∃ before behind, item.StandsBetween source before behind ∧ ¬ BlankLine before := by
  intro source item
  have hitem : item ∈ (Lexer.ofSource source).items := by decide +kernel
  have hhead : item.text.toList.head? = some '#' := by decide
  obtain ⟨before, behind, hstands, hdirective, -⟩ := LexicalItem.exists_directive_iff hitem hhead
  refine ⟨⟨hitem, hhead⟩, before, behind, hstands, fun hblank => ?_⟩
  obtain ⟨t, ht, -⟩ := hdirective.mpr hblank
  simp [item] at ht

end CSharpStyle
