import CSharpStyle.Proofs.Lexical.Delimited
import CSharpStyle.Proofs.Lexical.Lines

/-!
# Where malformed lexemes end

Reading goes on behind a malformed lexeme.  An ordinary string and a character literal that are not closed end with
their lines, so that the next line is read as if it stood alone; a verbatim or raw string and a comment reach to the end
of the text.  Only a character literal that begins with a backslash at the end of a line takes the next line with it.

* `Opened.read_inline`: what has to end with its line.
* `Lexeme.malformed_cases`: the two ways to be malformed.
* `Lexeme.recovery_iff`: which lexemes end where they should.
* `LexicalError.exists_recovery_iff`: which errors of a source text do, and what is read behind them.
-/

namespace CSharpStyle

namespace Opened

/-! ### On one line -/

/-- Strings and character literals in which only an escape takes a further character with it. -/
def IsInline (o : Opened) : Prop := o = regularString ∨ o = characterLiteral

/-- A string or character literal is open, or one more character is escaped in it, which is not the end of the line. -/
def Inline (o : Opened) (stack : List Opened) (text : List Char) : Prop :=
  stack = [] ∨ stack = [o] ∨ stack = [anyCharacter, o] ∧ ∃ c ahead, text = c :: ahead ∧ c ≠ '\n'

theorem inline_escaping (o : Opened) (ahead : List Char) : Inline o (escaping o ahead) ahead := by
  cases ahead with
  | nil => exact .inr (.inl rfl)
  | cons c ahead =>
    by_cases hc : c = '\n'
    · exact .inr (.inl (if_pos hc))
    · exact .inr (.inr ⟨if_neg hc, c, ahead, rfl, hc⟩)

theorem inline_of_step {o : Opened} (ho : o.IsInline) {c : Char} {ahead : List Char} {opened : List Opened}
    (h : o.step c ahead = .ok opened) : c ≠ '\n' ∧ Inline o opened ahead := by
  rcases ho with rfl | rfl <;> simp only [step] at h <;> split at h <;> cases h
  · exact ⟨by decide, inline_escaping _ _⟩
  · exact ⟨by decide, .inl rfl⟩
  · exact ⟨by assumption, .inr (.inl rfl)⟩
  · exact ⟨by decide, .inl rfl⟩
  · exact ⟨by assumption, .inr (.inl rfl)⟩

theorem fault_of_step {o : Opened} (ho : o.IsInline) {c : Char} {ahead : List Char} {fault : LexicalFault}
    (h : o.step c ahead = .error fault) : fault = o.faultAtEnd := by
  rcases ho with rfl | rfl <;> simp only [step] at h <;> split at h <;> cases h <;> rfl

/-- What has to end with its line never takes the end of a line. -/
theorem read_inline {o : Opened} (ho : o.IsInline) {stack : List Opened} {text : List Char} (h : Inline o stack text) :
    '\n' ∉ (read stack text).taken ∧ ∀ fault ∈ (read stack text).fault, fault = o.faultAtEnd := by
  fun_induction read stack text with
  | case1 text => simp
  | case2 innermost outer =>
    rcases h with h | h | ⟨-, c, ahead, htext, -⟩ <;> simp_all
  | case3 innermost outer c ahead fault hstep =>
    rcases h with h | h | ⟨h, -⟩ <;> cases h
    · simpa using fault_of_step ho hstep
    · cases hstep
  | case4 innermost outer c ahead opened hstep ih =>
    -- Either `c` belongs to the string itself, or a backslash in front of it has let it in.
    rcases h with h | h | ⟨h, d, rest, htext, hd⟩ <;> cases h
    · obtain ⟨hc, hopened⟩ := inline_of_step ho hstep
      rw [List.append_nil] at ih ⊢
      obtain ⟨htaken, hfault⟩ := ih hopened
      exact ⟨by simp [Extent.cons, htaken, Ne.symm hc], hfault⟩
    · cases hstep
      cases htext
      obtain ⟨htaken, hfault⟩ := ih (.inr (.inl rfl))
      rw [List.nil_append] at htaken
      exact ⟨by simp [Extent.cons, htaken, Ne.symm hd], hfault⟩

theorem fault_ne_unexpectedCharacter (stack : List Opened) (text : List Char) (c : Char) :
    (read stack text).fault ≠ some (.unexpectedCharacter c) := by
  fun_induction read stack text with
  | case1 text => simp
  | case2 innermost outer => cases innermost <;> simp [faultAtEnd]
  | case3 innermost outer c ahead fault hstep =>
    rcases (step_error hstep).2 with rfl | rfl <;> simp
  | case4 innermost outer c ahead opened hstep ih => exact ih

/-- A character literal takes the end of a line only in an escape at its beginning, and then no other. -/
theorem read_characterBody (ahead : List Char) :
    (∀ fault ∈ (read (characterBody ahead) ahead).fault, fault = .unterminatedCharacter) ∧
      ('\n' ∉ (read (characterBody ahead) ahead).taken ∨
        ∃ further, (read (characterBody ahead) ahead).taken = '\\' :: '\n' :: further ∧ '\n' ∉ further) := by
  unfold characterBody
  split
  · rename_i c ahead
    have hinline : Inline characterLiteral [characterLiteral] ahead := .inr (.inl rfl)
    obtain ⟨htaken, hfault⟩ := read_inline (.inr rfl) hinline
    refine ⟨hfault, ?_⟩
    by_cases hc : c = '\n'
    · subst hc
      exact .inr ⟨_, rfl, htaken⟩
    · have hsplit : (read [anyCharacter, anyCharacter, characterLiteral] ('\\' :: c :: ahead)).taken =
          '\\' :: c :: (read [characterLiteral] ahead).taken := rfl
      refine .inl ?_
      rw [hsplit]
      simp [htaken, Ne.symm hc]
  · have hinline : Inline characterLiteral [characterLiteral] ahead := .inr (.inl rfl)
    obtain ⟨htaken, hfault⟩ := read_inline (.inr rfl) hinline
    exact ⟨hfault, .inl htaken⟩

end Opened

/-! ### How malformed lexemes end -/

/-- How a malformed lexeme ends, by its beginning: an ordinary string and a character literal with their line, a
verbatim or raw string and a comment with the text, and an unexpected character behind itself. -/
structure Recovery (fault : LexicalFault) (taken behind : List Char) : Prop where
  character : "'".toList <+: taken → fault = .unterminatedCharacter ∧ '\n' ∉ taken ∧ AtLineEnd behind
  string : "\"".toList <+: taken → ¬ "\"\"\"".toList <+: taken →
    fault = .unterminatedString ∧ '\n' ∉ taken ∧ AtLineEnd behind
  whole : "@\"".toList <+: taken ∨ "\"\"\"".toList <+: taken ∨ "/*".toList <+: taken → behind = []
  unexpected : ∀ c, fault = .unexpectedCharacter c → taken = [c]

namespace Lexeme

/-- A malformed lexeme is one that something left open, or a character that begins no lexeme. -/
theorem malformed_cases {atLineStart : Bool} {c : Char} {ahead : List Char} {fault : LexicalFault}
    (h : (ofText atLineStart c ahead).kind = .error fault) :
    (∃ kind stack, opening? (c :: ahead) = some (kind, stack) ∧
      (Opened.read stack (c :: ahead)).fault = some fault ∧
      ofText atLineStart c ahead = delimited kind stack (c :: ahead)) ∨
    opening? (c :: ahead) = none ∧ fault = .unexpectedCharacter c ∧ (ofText atLineStart c ahead).taken = [c] := by
  cases hopening : opening? (c :: ahead) with
  | some opened =>
    obtain ⟨kind, stack⟩ := opened
    have htext : ofText atLineStart c ahead = delimited kind stack (c :: ahead) := ofText_of_opening hopening
    rw [htext, delimited] at h
    simp only at h
    split at h
    · cases h
    · rename_i hfault
      cases h
      exact .inl ⟨kind, stack, rfl, hfault, htext⟩
  | none =>
    refine .inr ⟨rfl, ?_⟩
    unfold ofText at h ⊢
    simp only [hopening] at h ⊢
    split_ifs at h ⊢
    -- Words, numbers and comments to the end of the line are tokens, so that only punctuation is left.
    all_goals first | cases h | unfold punctuation at h ⊢
    split at h
    · cases h
    · simp only at h
      split at h <;> cases h
      exact ⟨rfl, rfl⟩

/-- Three quotes in front make a raw string. -/
theorem raw_prefix_iff (text : List Char) :
    "\"\"\"".toList <+: text ↔ 3 ≤ (text.takeWhile (· == '"')).length := by
  constructor
  · rintro ⟨further, rfl⟩
    simp
  · intro h
    have hquotes : "\"\"\"".toList = (text.takeWhile (· == '"')).take 3 := by
      have hall : ∀ c ∈ text.takeWhile (· == '"'), c = '"' := fun c hc => by simpa using List.mem_takeWhile_imp hc
      rw [List.eq_replicate_of_mem hall, List.take_replicate, min_eq_left h]
      rfl
    rw [hquotes]
    exact (List.take_prefix ..).trans (List.takeWhile_prefix ..)

section Kinds

variable {kind : TokenKind} {stack : List Opened} {c : Char} {ahead : List Char} {fault : LexicalFault}

/-- A character literal takes the end of a line only in an escape at its beginning. -/
theorem character_recovery (hfault : (Opened.read stack ('\'' :: ahead)).fault = some fault)
    (hopening : opening? ('\'' :: ahead) = some (kind, stack)) :
    let taken := (Opened.read stack ('\'' :: ahead)).taken
    fault = .unterminatedCharacter ∧ ('\n' ∈ taken ↔ "'\\\n".toList <+: taken) ∧ '\n' ∉ taken.drop 3 := by
  cases hopening
  obtain ⟨hcharacter, htaken⟩ := Opened.read_characterBody ahead
  have hread : Opened.read (.anyCharacter :: Opened.characterBody ahead) ('\'' :: ahead) =
      (Opened.read (Opened.characterBody ahead) ahead).cons '\'' := rfl
  rw [hread] at hfault ⊢
  refine ⟨hcharacter fault hfault, ?_⟩
  rcases htaken with htaken | ⟨further, htaken, hfurther⟩
  · constructor
    · constructor
      · intro h
        simp [Extent.cons, htaken] at h
      · rintro ⟨further, hfurther⟩
        rw [← hfurther]
        simp
    · intro h
      exact htaken (List.mem_of_mem_drop (i := 2) h)
  · simp [Extent.cons, htaken, hfurther]

/-- An ordinary string ends with its line. -/
theorem string_recovery (hfault : (Opened.read stack ('"' :: ahead)).fault = some fault)
    (hopening : opening? ('"' :: ahead) = some (kind, stack))
    (hquotes : ¬ "\"\"\"".toList <+: (Opened.read stack ('"' :: ahead)).taken) :
    fault = .unterminatedString ∧ '\n' ∉ (Opened.read stack ('"' :: ahead)).taken := by
  cases hopening
  unfold openingQuotes at hfault hquotes ⊢
  by_cases hraw : 3 ≤ (('"' :: ahead).takeWhile (· == '"')).length
  · -- The run of quotes has been taken whole.
    exfalso
    rw [if_pos hraw] at hquotes
    have hread := Opened.read_replicate [.rawString (('"' :: ahead).takeWhile (· == '"')).length 0]
      (('"' :: ahead).takeWhile (· == '"')) (('"' :: ahead).dropWhile (· == '"'))
    rw [List.takeWhile_append_dropWhile] at hread
    have hprefix := (raw_prefix_iff ('"' :: ahead)).mpr hraw
    have hrun := List.prefix_of_prefix_length_le hprefix (List.takeWhile_prefix _) hraw
    refine hquotes ?_
    rw [hread]
    exact hrun.trans (List.prefix_append ..)
  · rw [if_neg hraw] at hfault ⊢
    have hread : Opened.read [.anyCharacter, .regularString] ('"' :: ahead) =
        (Opened.read [.regularString] ahead).cons '"' := rfl
    have hinline : Opened.Inline .regularString [.regularString] ahead := .inr (.inl rfl)
    obtain ⟨htaken, hstring⟩ := Opened.read_inline (.inl rfl) hinline
    rw [hread] at hfault ⊢
    exact ⟨hstring fault hfault, by simpa [Extent.cons] using htaken⟩

/-- A verbatim or raw string and a comment reach to the end of the text. -/
theorem whole_recovery {text : List Char} (hfault : (Opened.read stack text).fault = some fault)
    (hopening : opening? text = some (kind, stack))
    (hwhole : "@\"".toList <+: text ∨ "\"\"\"".toList <+: text ∨ "/*".toList <+: text) :
    (Opened.read stack text).rest = [] := by
  refine Opened.rest_eq_nil_of_fault ?_ hfault
  rcases hwhole with h | h | h
  · obtain ⟨further, rfl⟩ := h
    cases hopening
    decide
  · have hraw := (raw_prefix_iff text).mp h
    obtain ⟨ahead, rfl⟩ : ∃ ahead, text = '"' :: ahead := by
      obtain ⟨further, rfl⟩ := h
      exact ⟨_, rfl⟩
    cases hopening
    simp only [openingQuotes, if_pos hraw, List.mem_append, List.mem_replicate, List.mem_singleton]
    rintro o (⟨-, rfl⟩ | rfl) <;> rfl
  · obtain ⟨further, rfl⟩ := h
    cases hopening
    decide

theorem recovery_of_opening {text : List Char} (hfault : (Opened.read stack text).fault = some fault)
    (hopening : opening? text = some (kind, stack))
    (hescape : ¬ "'\\\n".toList <+: (Opened.read stack text).taken) :
    Recovery fault (Opened.read stack text).taken (Opened.read stack text).rest := by
  have hline := Opened.atLineEnd_of_fault hfault
  have hprefix : (Opened.read stack text).taken <+: text := ⟨_, Opened.read_append stack text⟩
  refine ⟨fun hquote => ?_, fun hquote hraw => ?_, fun hwhole => ?_, fun c hc => ?_⟩
  · obtain ⟨ahead, rfl⟩ := hquote.trans hprefix
    obtain ⟨hcharacter, hnewline, -⟩ := character_recovery hfault hopening
    exact ⟨hcharacter, fun hmem => hescape (hnewline.mp hmem), hline⟩
  · obtain ⟨ahead, rfl⟩ := hquote.trans hprefix
    obtain ⟨hstring, hnewline⟩ := string_recovery hfault hopening hraw
    exact ⟨hstring, hnewline, hline⟩
  · have htext := hwhole.imp (·.trans hprefix) (Or.imp (·.trans hprefix) (·.trans hprefix))
    exact whole_recovery hfault hopening htext
  · subst hc
    exact absurd hfault (Opened.fault_ne_unexpectedCharacter stack text c)

/-- What begins no string, character literal or comment is left behind alone. -/
theorem recovery_of_unexpected (hopening : opening? (c :: ahead) = none) (behind : List Char) :
    Recovery (.unexpectedCharacter c) [c] behind := by
  have hcharacter : c ≠ '\'' := by rintro rfl; cases hopening
  have hstring : c ≠ '"' := by rintro rfl; cases hopening
  refine ⟨fun hquote => ?_, fun hquote => ?_, fun hwhole => ?_, fun d hd => ?_⟩
  · exact absurd (List.cons_prefix_cons.mp hquote).1.symm hcharacter
  · exact absurd (List.cons_prefix_cons.mp hquote).1.symm hstring
  · rcases hwhole with h | h | h <;> exact absurd h.length_le (by simp)
  · cases hd
    rfl

/-- Every malformed lexeme ends where it should, but for a character literal that escapes the end of its line. -/
theorem recovery_iff {atLineStart : Bool} (h : (ofText atLineStart c ahead).kind = .error fault) :
    Recovery fault (ofText atLineStart c ahead).taken (ofText atLineStart c ahead).rest ↔
      ¬ "'\\\n".toList <+: (ofText atLineStart c ahead).taken := by
  constructor
  · intro hrecovery hescape
    have hquote : "'".toList <+: (ofText atLineStart c ahead).taken := .trans ⟨_, rfl⟩ hescape
    have hnewline := hescape.subset (by decide : '\n' ∈ "'\\\n".toList)
    exact (hrecovery.character hquote).2.1 hnewline
  · intro hescape
    rcases malformed_cases h with ⟨kind, stack, hopening, hfault, hlexeme⟩ | ⟨hopening, rfl, htaken⟩
    · rw [hlexeme] at hescape ⊢
      exact recovery_of_opening hfault hopening hescape
    · rw [htaken]
      exact recovery_of_unexpected hopening _

/-- A character literal that escapes the end of its line ends with the next line. -/
theorem escaped_line_end {atLineStart : Bool} (h : (ofText atLineStart c ahead).kind = .error fault)
    (hescape : "'\\\n".toList <+: (ofText atLineStart c ahead).taken) :
    '\n' ∉ (ofText atLineStart c ahead).taken.drop 3 ∧ AtLineEnd (ofText atLineStart c ahead).rest := by
  rcases malformed_cases h with ⟨kind, stack, hopening, hfault, hlexeme⟩ | ⟨hopening, rfl, htaken⟩
  · rw [hlexeme] at hescape ⊢
    have hprefix : (Opened.read stack (c :: ahead)).taken <+: c :: ahead := ⟨_, Opened.read_append ..⟩
    obtain ⟨further, hfurther⟩ := hescape.trans hprefix
    cases hfurther
    obtain ⟨-, -, hline⟩ := character_recovery hfault hopening
    exact ⟨hline, Opened.atLineEnd_of_fault hfault⟩
  · rw [htaken] at hescape
    exact absurd hescape.length_le (by simp)

end Kinds

end Lexeme

/-! ### The errors of a source text -/

namespace Lexer

variable {lexer after : Lexer} {e : LexicalError}

theorem lexeme_of_error (hnext : lexer.next? = some (.error e, after)) :
    ∃ c ahead, (Lexeme.ofText lexer.atLineStart c ahead).kind = .error e.fault ∧
      e.text.toList = (Lexeme.ofText lexer.atLineStart c ahead).taken ∧
      after = ⟨e.span.stop, false, (Lexeme.ofText lexer.atLineStart c ahead).rest⟩ := by
  obtain ⟨c, ahead, -, hitem, rfl⟩ := exists_lexeme hnext
  unfold itemOf at hitem
  split at hitem
  · cases hitem
  · rename_i fault hkind
    cases hitem
    exact ⟨c, ahead, hkind, String.toList_ofList, by rw [lineStartAfter, hkind]⟩

/-- The line behind a malformed lexeme is read as if it stood alone. -/
theorem notable_of_error (hnext : lexer.next? = some (.error e, after)) {next : List Char}
    (hline : after.rest = '\n' :: next) :
    lexer.notable = .error e :: notable ⟨e.span.stop.next '\n', true, next⟩ := by
  obtain ⟨c, ahead, -, -, hafter⟩ := lexeme_of_error hnext
  have hblank : ∀ c ∈ ['\n'], Unicode.isWhitespace c := List.forall_mem_singleton.mpr (by decide)
  have hskip : notable ⟨e.span.stop, false, ['\n'] ++ next⟩ = notable ⟨e.span.stop.next '\n', true, next⟩ :=
    notable_append e.span.stop false hblank next
  have hbehind : after.notable = notable ⟨e.span.stop.next '\n', true, next⟩ := by
    subst hafter
    simp only at hline
    rw [hline]
    exact hskip
  rw [← hbehind, notable, items_of_next hnext]
  rfl

end Lexer

namespace LexicalError

/-- An error ends where it should, and the lines behind it are read as if they stood alone, if and only if it is not a
character literal that escapes the end of its line; such a literal reaches to the end of the next line. -/
theorem exists_recovery_iff {source : String} {e : LexicalError} (h : e ∈ (TokenStream.ofSource source).errors) :
    ∃ before behind, (LexicalItem.error e).StandsBetween source before behind ∧
      (Recovery e.fault e.text.toList behind ↔ ¬ "'\\\n".toList <+: e.text.toList) ∧
      ("'\\\n".toList <+: e.text.toList → '\n' ∉ e.text.toList.drop 3 ∧ AtLineEnd behind) ∧
      ∀ next, behind = '\n' :: next →
        .error e :: Lexer.notable ⟨e.span.stop.next '\n', true, next⟩ <:+ (Lexer.ofSource source).notable := by
  have hitem : .error e ∈ (Lexer.ofSource source).items := by
    simp only [TokenStream.ofSource, List.mem_filterMap] at h
    obtain ⟨item, hitem, he⟩ := h
    cases item <;> cases he
    exact hitem
  -- A lexer stands at its place in the source, and what it still reads ends what is read in all.
  obtain ⟨lexer, after, ⟨⟨before, hwithin⟩, hsuffix⟩, hnext⟩ := Lexer.exists_step
    (P := fun lexer => (∃ before, lexer.Within source.toList before) ∧
      lexer.items <:+ (Lexer.ofSource source).items)
    hitem ⟨⟨[], Lexer.within_ofSource source⟩, List.suffix_refl _⟩ (by
      rintro lexer after item ⟨⟨before, hwithin⟩, hsuffix⟩ hnext
      obtain ⟨taken, -, -, -, hafter⟩ := Lexer.next?_step hwithin hnext
      rw [Lexer.items_of_next hnext] at hsuffix
      exact ⟨⟨_, hafter⟩, (List.suffix_cons ..).trans hsuffix⟩)
  obtain ⟨c, ahead, hkind, htaken, hafter⟩ := Lexer.lexeme_of_error hnext
  have hrest : after.rest = (Lexeme.ofText lexer.atLineStart c ahead).rest := by rw [hafter]
  refine ⟨before, after.rest, hwithin.standsBetween hnext, ?_, ?_, fun next hline => ?_⟩
  · rw [htaken, hrest]
    exact Lexeme.recovery_iff hkind
  · rw [htaken, hrest]
    exact Lexeme.escaped_line_end hkind
  · rw [← Lexer.notable_of_error hnext hline]
    exact hsuffix.filter _

/-- An escape is the last character of the line. -/
theorem recovery_of_escape_at_line_end :
    let e : LexicalError := ⟨.unterminatedString, "\"a\\", ⟨⟨2, 1, 3⟩, ⟨5, 1, 6⟩⟩⟩
    e ∈ (TokenStream.ofSource "x \"a\\\ny").errors ∧
      ∃ before behind, (LexicalItem.error e).StandsBetween "x \"a\\\ny" before behind ∧
        Recovery e.fault e.text.toList behind := by
  intro e
  have he : e ∈ (TokenStream.ofSource "x \"a\\\ny").errors := by decide +kernel
  obtain ⟨before, behind, hstands, hrecovery, -⟩ := exists_recovery_iff he
  exact ⟨he, before, behind, hstands, hrecovery.mpr (by decide)⟩

end LexicalError

/-- A character literal that escapes the end of its line takes the next line with it. -/
theorem not_recovery_escaped_line_end :
    ∃ e ∈ (TokenStream.ofSource "'\\\nabc\nd").errors, ∀ behind, ¬ Recovery e.fault e.text.toList behind := by
  have herror : (TokenStream.ofSource "'\\\nabc\nd").errors =
      [⟨.unterminatedCharacter, "'\\\nabc", ⟨⟨0, 1, 1⟩, ⟨6, 2, 4⟩⟩⟩] := by
    decide +kernel
  refine ⟨_, herror ▸ List.mem_singleton_self _, fun behind h => ?_⟩
  exact (h.character (by decide)).2.1 (by decide)

end CSharpStyle
