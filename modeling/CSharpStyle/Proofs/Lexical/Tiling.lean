import CSharpStyle.Lexical.Lexer
import Mathlib.Data.String.Basic

/-!
# The items of a text tile it

The tokens and errors of a source text lie one behind the other without gaps, and together they are the text
(`tiling_items`).  The invariant of a lexer is `Lexer.Within`: what it has consumed and what lies ahead make up the
text, and its position counts what it has consumed.  One step keeps it (`Lexer.next?_step`); `Lexer.Emits` says
that a lexer gives certain items and then stops, and carries the invariant along a whole run.
-/

namespace CSharpStyle

/-- `p` is the place behind the characters `before`: it counts their bytes, the newlines among them and the
characters behind the last newline. -/
structure Position.IsBehind (p : Position) (before : List Char) : Prop where
  offset_eq : p.offset = (String.ofList before).utf8ByteSize
  line_eq : p.line = 1 + before.count '\n'
  column_eq : p.column = 1 + (before.reverse.takeWhile (· != '\n')).length

namespace Position.IsBehind

theorem start : Position.start.IsBehind [] := ⟨by simp [Position.start], rfl, rfl⟩

theorem next {p : Position} {before : List Char} (h : p.IsBehind before) (c : Char) :
    (p.next c).IsBehind (before ++ [c]) := by
  obtain ⟨hoffset, hline, hcolumn⟩ := h
  rw [String.utf8ByteSize_ofList] at hoffset
  by_cases hc : c = '\n'
  · subst hc
    refine ⟨?_, ?_, ?_⟩
    · rw [String.utf8ByteSize_ofList, String.utf8Len_append]
      simp [Position.next, hoffset]
    · simp [Position.next, hline]; omega
    · simp [Position.next]
  · refine ⟨?_, ?_, ?_⟩
    · simp [Position.next, hc, hoffset, String.utf8ByteSize_ofList]
    · simp [Position.next, hc, hline]
    · simp [Position.next, hc, hcolumn]; omega

theorem advance {p : Position} {before : List Char} (h : p.IsBehind before) (cs : List Char) :
    (p.advance cs).IsBehind (before ++ cs) := by
  induction cs generalizing p before with
  | nil => simpa using h
  | cons c cs ih =>
    have htail := ih (h.next c)
    rw [List.append_assoc, List.singleton_append] at htail
    exact htail

theorem line_le {p : Position} {before : List Char} (h : p.IsBehind before) : p.line ≤ before.length + 1 := by
  have hcount := before.count_le_length (a := '\n')
  have := h.line_eq
  omega

theorem column_le {p : Position} {before : List Char} (h : p.IsBehind before) :
    p.column ≤ before.length + 1 := by
  have hprefix := (List.takeWhile_prefix (l := before.reverse) (· != '\n')).length_le
  rw [List.length_reverse] at hprefix
  have := h.column_eq
  omega

end Position.IsBehind

/-- The piece of the source between the offsets of a span. -/
def Span.slice (span : Span) (source : String) : String :=
  String.Pos.Raw.extract source ⟨span.start.offset⟩ ⟨span.stop.offset⟩

/-- The items lie one behind the other from `p` to `q`, and each covers at least one byte. -/
def Chained : Position → List LexicalItem → Position → Prop
  | p, [], q => p = q
  | p, item :: items, q =>
    item.span.start = p ∧ p.offset < item.span.stop.offset ∧ Chained item.span.stop items q

/-- `p` is the place between some beginning of the text and the rest of it. -/
def Position.LiesIn (p : Position) (text : List Char) : Prop :=
  ∃ before rest, text = before ++ rest ∧ p.IsBehind before

/-- The item is the piece of the source between the characters in front of it and those behind it. -/
structure LexicalItem.StandsBetween (item : LexicalItem) (source : String) (before behind : List Char) : Prop where
  source_eq : before ++ item.text.toList ++ behind = source.toList
  start : item.span.start.IsBehind before
  stop : item.span.stop.IsBehind (before ++ item.text.toList)

namespace Lexer

/-- The lexer gives the items one by one and then stops. -/
inductive Emits : Lexer → List LexicalItem → Prop
  | stop {lexer : Lexer} : lexer.next? = none → Emits lexer []
  | item {lexer after : Lexer} {item : LexicalItem} {items : List LexicalItem} :
      lexer.next? = some (item, after) → Emits after items → Emits lexer (item :: items)

/-- The lexer stands in `text` behind `before`. -/
structure Within (lexer : Lexer) (text before : List Char) : Prop where
  append_rest : before ++ lexer.rest = text
  isBehind : lexer.position.IsBehind before

theorem within_ofSource (source : String) : (ofSource source).Within source.toList [] :=
  ⟨rfl, .start⟩

/-- A step reads the lexeme at the head of the rest. -/
theorem exists_lexeme {lexer after : Lexer} {item : LexicalItem} (h : lexer.next? = some (item, after)) :
    ∃ c ahead, lexer.rest = c :: ahead ∧
      let lexeme := Lexeme.ofText lexer.atLineStart c ahead
      let stop := lexer.position.advance lexeme.taken
      item = itemOf lexeme ⟨lexer.position, stop⟩ ∧
        after = ⟨stop, lineStartAfter lexer.atLineStart lexeme, lexeme.rest⟩ := by
  unfold next? at h
  split at h
  · cases h
  · rename_i c ahead hrest
    simp only [Option.some.injEq, Prod.mk.injEq] at h
    exact ⟨c, ahead, hrest, h.1.symm, h.2.symm⟩

/-- A step consumes at least one character, and its item covers what was consumed. -/
theorem next?_step {lexer after : Lexer} {item : LexicalItem} {text before : List Char}
    (h : lexer.Within text before) (hnext : lexer.next? = some (item, after)) :
    ∃ taken, taken ≠ [] ∧ item.text = String.ofList taken ∧ item.span = ⟨lexer.position, after.position⟩ ∧
      after.Within text (before ++ taken) := by
  obtain ⟨c, ahead, hrest, rfl, rfl⟩ := exists_lexeme hnext
  have hsplit := Lexeme.taken_append_rest lexer.atLineStart c ahead
  refine ⟨_, Lexeme.taken_ne_nil lexer.atLineStart c ahead, ?_, ?_, ?_, h.isBehind.advance _⟩
  · unfold itemOf; split <;> rfl
  · unfold itemOf; split <;> rfl
  · rw [List.append_assoc, hsplit, ← hrest]
    exact h.append_rest

theorem emits_items (lexer : Lexer) : Emits lexer lexer.items := by
  fun_induction items lexer with
  | case1 lexer hstop => exact .stop hstop
  | case2 lexer item after hnext ih => exact .item hnext ih

theorem Within.standsBetween {source : String} {lexer after : Lexer} {item : LexicalItem} {before : List Char}
    (h : lexer.Within source.toList before) (hnext : lexer.next? = some (item, after)) :
    item.StandsBetween source before after.rest := by
  obtain ⟨taken, -, htext, hspan, hafter⟩ := next?_step h hnext
  have htaken : item.text.toList = taken := by rw [htext, String.toList_ofList]
  rw [← htaken] at hafter
  refine ⟨hafter.append_rest, ?_, ?_⟩
  · rw [hspan]
    exact h.isBehind
  · rw [hspan]
    exact hafter.isBehind

/-- What every step of a lexer keeps holds wherever an item is read. -/
theorem exists_step {P : Lexer → Prop} {lexer : Lexer} {item : LexicalItem} (hmem : item ∈ lexer.items) (h : P lexer)
    (hstep : ∀ {lexer after : Lexer} {item : LexicalItem}, P lexer → lexer.next? = some (item, after) → P after) :
    ∃ lexer after, P lexer ∧ lexer.next? = some (item, after) := by
  fun_induction items lexer with
  | case1 lexer hstop => cases hmem
  | case2 lexer first after hnext ih =>
    rcases List.mem_cons.mp hmem with rfl | hmem
    · exact ⟨lexer, after, h, hnext⟩
    · exact ih hmem (hstep h hnext)

theorem Within.rest_eq_nil {lexer : Lexer} {text before : List Char} (h : lexer.Within text before)
    (hstop : lexer.next? = none) : before = text := by
  have hrest : lexer.rest = [] := by
    unfold next? at hstop
    split at hstop
    · assumption
    · simp at hstop
  have := h.append_rest
  rwa [hrest, List.append_nil] at this

theorem Within.liesIn {lexer : Lexer} {text before : List Char} (h : lexer.Within text before) :
    lexer.position.LiesIn text := ⟨before, lexer.rest, h.append_rest.symm, h.isBehind⟩

variable {lexer : Lexer} {items : List LexicalItem} {text before : List Char}

theorem Emits.chained (run : Emits lexer items) (h : lexer.Within text before) :
    ∃ stop, Chained lexer.position items stop ∧ stop.IsBehind text := by
  induction run generalizing before with
  | stop hstop => exact ⟨_, rfl, h.rest_eq_nil hstop ▸ h.isBehind⟩
  | @item lexer after item items hnext _ ih =>
    obtain ⟨taken, hne, -, hspan, hafter⟩ := next?_step h hnext
    obtain ⟨stop, hchain, hstop⟩ := ih hafter
    refine ⟨stop, ?_, hstop⟩
    have hstart := h.isBehind.offset_eq
    have hend := hafter.isBehind.offset_eq
    rw [String.utf8ByteSize_ofList] at hstart hend
    rw [String.utf8Len_append] at hend
    have hpos : String.utf8Len taken ≠ 0 := by simpa using hne
    rw [Chained, hspan]
    exact ⟨rfl, by dsimp only; omega, hchain⟩

theorem Emits.liesIn (run : Emits lexer items) (h : lexer.Within text before) :
    ∀ item ∈ items, item.span.start.LiesIn text ∧ item.span.stop.LiesIn text := by
  induction run generalizing before with
  | stop => simp
  | @item lexer after item items hnext _ ih =>
    obtain ⟨taken, -, -, hspan, hafter⟩ := next?_step h hnext
    intro other hother
    rcases List.mem_cons.mp hother with rfl | hother
    · rw [hspan]; exact ⟨h.liesIn, hafter.liesIn⟩
    · exact ih hafter other hother

/-- Every item has the text between the ends of its span. -/
theorem Emits.slice_eq {source : String} (run : Emits lexer items) (h : lexer.Within source.toList before) :
    ∀ item ∈ items, item.span.slice source = item.text := by
  induction run generalizing before with
  | stop => simp
  | @item lexer after item items hnext _ ih =>
    obtain ⟨taken, -, htext, hspan, hafter⟩ := next?_step h hnext
    intro other hother
    rcases List.mem_cons.mp hother with rfl | hother
    · have hsource : source = String.ofList (before ++ taken ++ after.rest) := by
        rw [hafter.append_rest, String.ofList_toList]
      have hextract := String.extract_of_valid before taken after.rest
      rw [← String.utf8Len_append, ← String.utf8ByteSize_ofList, ← String.utf8ByteSize_ofList,
        ← h.isBehind.offset_eq, ← hafter.isBehind.offset_eq, ← hsource] at hextract
      rw [Span.slice, hspan, htext]
      exact hextract
    · exact ih hafter other hother

theorem Emits.append_join (run : Emits lexer items) (h : lexer.Within text before) :
    String.ofList before ++ String.join (items.map LexicalItem.text) = String.ofList text := by
  induction run generalizing before with
  | stop hstop => simp [h.rest_eq_nil hstop]
  | @item lexer after item items hnext _ ih =>
    obtain ⟨taken, -, htext, -, hafter⟩ := next?_step h hnext
    rw [List.map_cons, String.join_cons, htext, ← String.append_assoc, ← String.ofList_append]
    exact ih hafter

theorem Emits.length_le (run : Emits lexer items) : items.length ≤ lexer.rest.length := by
  induction run with
  | stop => simp
  | item hnext _ ih =>
    have := next?_rest_length_lt hnext
    rw [List.length_cons]
    omega

end Lexer

/-- The items cover the source without gaps and overlaps. -/
structure Tiling (source : String) (items : List LexicalItem) : Prop where
  /-- The lexer gives exactly these items, at most one for each character. -/
  emitted : Lexer.Emits (.ofSource source) items ∧ items.length ≤ source.length
  /-- Each item is non-empty and starts where the one before it ended, the first at the start of the source and
  the last ending at its end. -/
  chained : ∃ stop, Chained .start items stop ∧ stop.offset = source.utf8ByteSize
  /-- The pieces of the source between the ends of the spans make up the source, and are the texts of the
  items. -/
  joined : String.join (items.map fun item => item.span.slice source) = source ∧
    ∀ item ∈ items, item.span.slice source = item.text
  /-- Lines and columns count the newlines and the characters behind the last one. -/
  placed : ∀ item ∈ items, item.span.start.LiesIn source.toList ∧ item.span.stop.LiesIn source.toList
  /-- In a source short enough for counters of 32 bits no line and no column needs more. -/
  counted : source.length < UInt32.size - 1 → ∀ item ∈ items, ∀ p ∈ [item.span.start, item.span.stop],
    p.line < UInt32.size ∧ p.column < UInt32.size

theorem Position.LiesIn.counted {p : Position} {source : String} (h : p.LiesIn source.toList)
    (short : source.length < UInt32.size - 1) : p.line < UInt32.size ∧ p.column < UInt32.size := by
  obtain ⟨before, rest, htext, hp⟩ := h
  have hlength := congrArg List.length htext
  rw [String.length_toList, List.length_append] at hlength
  have hline := hp.line_le
  have hcolumn := hp.column_le
  constructor <;> omega

/-- The items of a source text tile it. -/
theorem tiling_items (source : String) : Tiling source (Lexer.ofSource source).items := by
  have run := Lexer.emits_items (.ofSource source)
  have hstart := Lexer.within_ofSource source
  have hslices := run.slice_eq hstart
  refine ⟨⟨run, ?_⟩, ?_, ⟨?_, hslices⟩, run.liesIn hstart, ?_⟩
  · rw [← String.length_toList]
    exact run.length_le
  · obtain ⟨stop, hchain, hstop⟩ := run.chained hstart
    refine ⟨stop, hchain, ?_⟩
    rw [hstop.offset_eq, String.ofList_toList]
  · rw [List.map_congr_left hslices]
    simpa using run.append_join hstart
  · intro short item hitem p hp
    have hplaced := run.liesIn hstart item hitem
    simp only [List.mem_cons, List.not_mem_nil, or_false] at hp
    rcases hp with rfl | rfl
    · exact hplaced.1.counted short
    · exact hplaced.2.counted short

end CSharpStyle
