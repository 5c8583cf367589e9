import CSharpStyle.Proofs.Lexical.Tiling
import CSharpStyle.Source.Line
import Mathlib.Data.List.DropRight

/-!
# The line around a place

A place lies on the line that extends from the last newline in front of it to the next one behind it. The lines of a
text are numbered by the newlines in front of them, which is how positions count lines.

* `lineAround`: the line on which a place lies.
* `IsTrimmed line text`: `text` is what the white space at both ends of `line` leaves.
* `getElem?_splitAtNewlines`: the piece with the number of a place is the line around it.
* `getElem?_trimmedLines`: so is the trimmed line of a place in front of a visible character; carriage returns do not
  matter.
* `TokenStream.exists_start`: a significant token starts with a visible character.
-/

namespace CSharpStyle

/-- The line between the characters in front of a place and those behind it. -/
def lineAround (before behind : List Char) : List Char :=
  before.rtakeWhile (· != '\n') ++ behind.takeWhile (· != '\n')

/-- `text` is `line` without the white space at its ends. -/
structure IsTrimmed (line text : List Char) : Prop where
  split : ∃ front back, line = front ++ text ++ back ∧ (∀ c ∈ front, Unicode.isWhitespace c) ∧
    ∀ c ∈ back, Unicode.isWhitespace c
  ends : ∀ c, text.head? = some c ∨ text.getLast? = some c → Unicode.isWhitespace c = false

/-! ### Pieces between newlines -/

theorem splitAtNewlines_line (rest : List Char) : splitAtNewlines ('\n' :: rest) = [] :: splitAtNewlines rest := by
  rw [splitAtNewlines, if_pos rfl]

/-- A character that ends no line is put in front of the first piece. -/
theorem splitAtNewlines_cons {c : Char} (hc : c ≠ '\n') {rest line : List Char} {lines : List (List Char)}
    (h : splitAtNewlines rest = line :: lines) : splitAtNewlines (c :: rest) = (c :: line) :: lines := by
  rw [splitAtNewlines, if_neg hc, h]

theorem exists_splitAtNewlines (text : List Char) :
    ∃ lines, splitAtNewlines text = text.takeWhile (· != '\n') :: lines := by
  induction text with
  | nil => exact ⟨[], rfl⟩
  | cons c rest ih =>
    by_cases hc : c = '\n'
    · subst hc
      exact ⟨splitAtNewlines rest, splitAtNewlines_line rest⟩
    · obtain ⟨lines, hlines⟩ := ih
      refine ⟨lines, ?_⟩
      rw [splitAtNewlines_cons hc hlines, List.takeWhile_cons, if_pos (by simpa using hc)]

theorem length_splitAtNewlines (text : List Char) : (splitAtNewlines text).length = text.count '\n' + 1 := by
  induction text with
  | nil => rfl
  | cons c rest ih =>
    by_cases hc : c = '\n'
    · subst hc
      rw [splitAtNewlines_line, List.length_cons, ih, List.count_cons_self]
    · obtain ⟨lines, hlines⟩ := exists_splitAtNewlines rest
      rw [hlines, List.length_cons] at ih
      rw [splitAtNewlines_cons hc hlines, List.length_cons, List.count_cons_of_ne hc, ih]

theorem splitAtNewlines_append_line (a b : List Char) :
    splitAtNewlines (a ++ '\n' :: b) = splitAtNewlines a ++ splitAtNewlines b := by
  induction a with
  | nil => exact splitAtNewlines_line b
  | cons c a ih =>
    by_cases hc : c = '\n'
    · subst hc
      rw [List.cons_append, splitAtNewlines_line, splitAtNewlines_line, ih, List.cons_append]
    · obtain ⟨lines, hlines⟩ := exists_splitAtNewlines a
      rw [hlines, List.cons_append] at ih
      rw [List.cons_append, splitAtNewlines_cons hc ih, splitAtNewlines_cons hc hlines, List.cons_append]

/-- The pieces of a text are numbered by the newlines in front of them. -/
theorem getElem?_splitAtNewlines (before behind : List Char) :
    (splitAtNewlines (before ++ behind))[before.count '\n']? = some (lineAround before behind) := by
  -- The place moves through the text from left to right.
  induction before using List.reverseRecOn generalizing behind with
  | nil =>
    obtain ⟨lines, hlines⟩ := exists_splitAtNewlines behind
    rw [List.nil_append, hlines]
    rfl
  | append_singleton before c ih =>
    rw [List.append_assoc, List.singleton_append]
    by_cases hc : c = '\n'
    · subst hc
      obtain ⟨lines, hlines⟩ := exists_splitAtNewlines behind
      have hnumber : (before ++ ['\n']).count '\n' = (splitAtNewlines before).length := by
        rw [length_splitAtNewlines, List.count_append, List.count_singleton_self]
      rw [splitAtNewlines_append_line, hnumber, List.getElem?_append_right (Nat.le_refl _), Nat.sub_self, hlines,
        List.getElem?_cons_zero, lineAround, List.rtakeWhile_concat, if_neg (by simp), List.nil_append]
    · have hline : lineAround (before ++ [c]) behind = lineAround before (c :: behind) := by
        have hkeep : (c != '\n') = true := by simpa using hc
        rw [lineAround, lineAround, List.rtakeWhile_concat, List.takeWhile_cons, if_pos hkeep, if_pos hkeep,
          List.append_assoc, List.singleton_append]
      rw [List.count_append, List.count_singleton, if_neg (by simpa using hc), Nat.add_zero, hline]
      exact ih (c :: behind)

/-! ### White space at the ends -/

theorem trimmed_eq (line : List Char) :
    trimmed line = (line.dropWhile Unicode.isWhitespace).rdropWhile Unicode.isWhitespace := rfl

theorem isTrimmed_trimmed (line : List Char) : IsTrimmed line (trimmed line) := by
  have hinner : trimmed line ++ (line.dropWhile Unicode.isWhitespace).rtakeWhile Unicode.isWhitespace =
      line.dropWhile Unicode.isWhitespace := List.rdropWhile_append_rtakeWhile
  constructor
  · refine ⟨line.takeWhile Unicode.isWhitespace,
      (line.dropWhile Unicode.isWhitespace).rtakeWhile Unicode.isWhitespace, ?_, ?_, ?_⟩
    · rw [List.append_assoc, hinner, List.takeWhile_append_dropWhile]
    · intro c hc
      exact List.mem_takeWhile_imp hc
    · intro c hc
      exact List.mem_rtakeWhile_imp hc
  · rintro c (hc | hc)
    · have hhead : (line.dropWhile Unicode.isWhitespace).head? = some c := by
        rw [← hinner, List.head?_append, hc, Option.some_or]
      have hfirst := List.head?_dropWhile_not Unicode.isWhitespace line
      rw [hhead] at hfirst
      exact hfirst
    · have hne : trimmed line ≠ [] := by
        intro hnil
        rw [hnil] at hc
        cases hc
      have hlast := List.rdropWhile_last_not Unicode.isWhitespace _ hne
      rw [List.getLast?_eq_some_getLast hne] at hc
      rw [← Option.some.inj hc]
      exact Bool.eq_false_iff.mpr hlast

/-- A carriage return at the end of a line is white space. -/
theorem trimmed_withoutCarriageReturn (line : List Char) : trimmed (withoutCarriageReturn line) = trimmed line := by
  rw [withoutCarriageReturn]
  split
  · rename_i hreturn
    obtain ⟨front, rfl⟩ := List.getLast?_eq_some_iff.mp hreturn
    rw [List.dropLast_concat, trimmed_eq, trimmed_eq, List.dropWhile_append]
    split
    · rename_i hblank
      rw [List.isEmpty_iff.mp hblank]
      rfl
    · exact (List.rdropWhile_concat_pos _ _ _ rfl).symm
  · rfl

/-- A line with a visible character is not blank. -/
theorem trimmed_ne_nil {line : List Char} {c : Char} (hmem : c ∈ line) (hc : Unicode.isWhitespace c = false) :
    trimmed line ≠ [] := by
  intro hnil
  obtain ⟨front, back, hline, hfront, hback⟩ := (isTrimmed_trimmed line).split
  rw [hnil, List.append_nil] at hline
  have hwhite : Unicode.isWhitespace c := by
    rw [hline] at hmem
    rcases List.mem_append.mp hmem with hmem | hmem
    · exact hfront c hmem
    · exact hback c hmem
  rw [hc] at hwhite
  cases hwhite

/-! ### Lines of a text -/

/-- A piece that is not empty is a line, but for a carriage return at its end. -/
theorem exists_getElem?_linesOf {text line : List Char} {i : Nat} (h : (splitAtNewlines text)[i]? = some line)
    (hne : line ≠ []) : ∃ kept, (linesOf text)[i]? = some kept ∧ trimmed kept = trimmed line := by
  rcases List.eq_nil_or_concat (splitAtNewlines text) with hnil | ⟨ended, last, hpieces⟩
  · rw [hnil] at h
    cases h
  · rw [List.concat_eq_append] at hpieces
    rw [hpieces] at h
    by_cases hi : i < ended.length
    · -- The line is ended by a newline, perhaps with a carriage return in front of it.
      rw [List.getElem?_append_left hi] at h
      have hended : (ended.map withoutCarriageReturn)[i]? = some (withoutCarriageReturn line) := by
        rw [List.getElem?_map, h, Option.map_some]
      have hlines : ∃ more, linesOf text = ended.map withoutCarriageReturn ++ more := by
        rw [linesOf, hpieces, List.dropLast_concat, List.getLast?_concat]
        cases last with
        | nil => exact ⟨[], (List.append_nil _).symm⟩
        | cons c last => exact ⟨[c :: last], rfl⟩
      obtain ⟨more, hmore⟩ := hlines
      refine ⟨withoutCarriageReturn line, ?_, trimmed_withoutCarriageReturn line⟩
      rw [hmore, List.getElem?_append_left (by rwa [List.length_map]), hended]
    · -- The line is the last one, which is kept since it is not empty.
      obtain ⟨rfl, rfl⟩ : i = ended.length ∧ last = line := by
        rw [List.getElem?_append_right (Nat.le_of_not_lt hi)] at h
        have hzero := List.getElem?_eq_some_iff.mp h
        obtain ⟨hlt, hget⟩ := hzero
        rw [List.length_singleton] at hlt
        refine ⟨by omega, ?_⟩
        simpa using hget
      refine ⟨last, ?_, rfl⟩
      rw [linesOf, hpieces, List.dropLast_concat, List.getLast?_concat]
      cases last with
      | nil => exact absurd rfl hne
      | cons c last =>
        have hlength : ended.length = (ended.map withoutCarriageReturn).length := (List.length_map _).symm
        rw [hlength]
        exact List.getElem?_concat_length

/-- The trimmed line around a place in front of a visible character has the number of the newlines in front of it. -/
theorem getElem?_trimmedLines {source : String} {before behind : List Char} {c : Char}
    (hsource : before ++ behind = source.toList) (hhead : behind.head? = some c)
    (hc : Unicode.isWhitespace c = false) :
    (trimmedLines source)[before.count '\n']? = some (String.ofList (trimmed (lineAround before behind))) ∧
      trimmed (lineAround before behind) ≠ [] := by
  have hmem : c ∈ lineAround before behind := by
    obtain ⟨ahead, rfl⟩ := List.head?_eq_some_iff.mp hhead
    have hnewline : (c != '\n') = true := by
      rw [bne_iff_ne]
      rintro rfl
      cases hc
    rw [lineAround, List.takeWhile_cons, if_pos hnewline]
    exact List.mem_append_right _ (List.mem_cons_self ..)
  have hpiece := getElem?_splitAtNewlines before behind
  rw [hsource] at hpiece
  obtain ⟨kept, hkept, htrimmed⟩ := exists_getElem?_linesOf hpiece (List.ne_nil_of_mem hmem)
  refine ⟨?_, trimmed_ne_nil hmem hc⟩
  rw [trimmedLines, List.getElem?_toArray, List.getElem?_map, hkept, Option.map_some, htrimmed]

/-! ### Starts of tokens -/

namespace Lexer

/-- A lexeme that begins with white space is white space. -/
theorem isTrivia_of_isWhitespace {lexer after : Lexer} {t : Token} {c : Char} {ahead : List Char}
    (hnext : lexer.next? = some (.token t, after)) (hrest : lexer.rest = c :: ahead) (hc : Unicode.isWhitespace c) :
    t.isTrivia := by
  obtain ⟨d, behind, hrest', hitem, -⟩ := exists_lexeme hnext
  rw [hrest] at hrest'
  cases hrest'
  rw [Lexeme.ofText, if_pos hc, itemOf] at hitem
  cases hitem
  rfl

end Lexer

/-- A significant token starts in front of a visible character. -/
theorem TokenStream.exists_start {source : String} {t : Token} (h : t ∈ (ofSource source).significant) :
    ∃ before behind c, before ++ behind = source.toList ∧ t.start.IsBehind before ∧ behind.head? = some c ∧
      Unicode.isWhitespace c = false := by
  obtain ⟨htoken, hsignificant⟩ := List.mem_filter.mp h
  obtain ⟨item, hitem, heq⟩ := List.mem_filterMap.mp htoken
  cases item with
  | error e => cases heq
  | token u =>
    cases heq
    obtain ⟨lexer, after, ⟨before, hwithin⟩, hnext⟩ :=
      Lexer.exists_step (P := fun lexer => ∃ before, lexer.Within source.toList before) hitem
        ⟨[], Lexer.within_ofSource source⟩ fun ⟨before, hwithin⟩ hstep => by
          obtain ⟨taken, -, -, -, hafter⟩ := Lexer.next?_step hwithin hstep
          exact ⟨before ++ taken, hafter⟩
    obtain ⟨c, ahead, hrest, -, -⟩ := Lexer.exists_lexeme hnext
    refine ⟨before, lexer.rest, c, hwithin.append_rest, (hwithin.standsBetween hnext).start, ?_, ?_⟩
    · rw [hrest]
      rfl
    · refine Bool.eq_false_iff.mpr fun hc => ?_
      rw [Lexer.isTrivia_of_isWhitespace hnext hrest hc] at hsignificant
      cases hsignificant

end CSharpStyle
