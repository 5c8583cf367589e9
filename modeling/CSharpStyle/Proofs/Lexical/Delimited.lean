import CSharpStyle.Lexical.Lexer

/-!
# What is open, and what follows a text

Facts on `Opened.read`, which reads strings, character literals and comments.  `outer` is what is open around a stack,
and `more` stands behind a text.

* `Opened.read_append_stack`: what is open is closed from the inside out.
* `Opened.read_extend`: a text in which everything is closed is read in the same way in front of anything but a quote.
* `Opened.atLineEnd_of_fault`: reading stops early only at the end of a line or of the text.
* `Opened.closes_append_iff`: everything is closed exactly at the end of a text, `Opened.Closes`.
-/

namespace CSharpStyle

/-- A line ends here, or the text. -/
def AtLineEnd (rest : List Char) : Prop := ∀ c ∈ rest.head?, c = '\n'

namespace Extent

/-- The extent with further characters in front of it. -/
def behind (before : List Char) (e : Extent) : Extent := { e with taken := before ++ e.taken }

/-- Goes on behind an extent, unless a fault ended it. -/
def andThen (e : Extent) (next : List Char → Extent) : Extent :=
  match e.fault with
  | none => (next e.rest).behind e.taken
  | some _ => e

theorem andThen_of_none {e : Extent} (h : e.fault = none) (next : List Char → Extent) :
    e.andThen next = (next e.rest).behind e.taken := by
  rw [andThen, h]

theorem andThen_of_some {e : Extent} {fault : LexicalFault} (h : e.fault = some fault)
    (next : List Char → Extent) : e.andThen next = e := by
  rw [andThen, h]

theorem cons_andThen (c : Char) (e : Extent) (next : List Char → Extent) :
    (e.cons c).andThen next = (e.andThen next).cons c := by
  cases h : e.fault with
  | none => rw [andThen_of_none h, andThen_of_none (e := e.cons c) h]; rfl
  | some fault => rw [andThen_of_some h, andThen_of_some (e := e.cons c) h]

end Extent

namespace Opened

/-! ### Stacks -/

/-- What is open is closed from the inside out. -/
theorem read_append_stack (inner outer : List Opened) (text : List Char) :
    read (inner ++ outer) text = (read inner text).andThen (read outer) := by
  fun_induction read inner text with
  | case1 text => rfl
  | case2 innermost inner => rfl
  | case3 innermost inner c ahead fault hstep =>
    rw [List.cons_append, read, hstep]
    rfl
  | case4 innermost inner c ahead opened hstep ih =>
    rw [List.cons_append, read, hstep]
    simp only [← List.append_assoc, ih, Extent.cons_andThen]

/-- Characters that are consumed whatever they are. -/
theorem read_replicate (outer : List Opened) (before text : List Char) :
    read (List.replicate before.length .anyCharacter ++ outer) (before ++ text) = (read outer text).behind before := by
  induction before with
  | nil => rfl
  | cons c before ih =>
    have hread : read (List.replicate (c :: before).length .anyCharacter ++ outer) (c :: before ++ text) =
        (read (List.replicate before.length .anyCharacter ++ outer) (before ++ text)).cons c := rfl
    rw [hread, ih]
    rfl

/-! ### What follows a text -/

/-- At the end of a text a step that closes everything has looked ahead for a quote at most. -/
theorem step_nil {o : Opened} {c : Char} {more : List Char} (h : o.step c [] = .ok [])
    (hmore : more.head? ≠ some '"') : o.step c more = .ok [] := by
  cases o with
  | anyCharacter => rfl
  | regularString =>
    simp only [step] at h ⊢
    split at h <;> simp_all [escaping]
  | verbatimString =>
    simp only [step] at h ⊢
    cases more <;> split at h <;> simp_all [unlessDoubled]
  | rawString quotes seen =>
    simp only [step] at h ⊢
    split at h <;> simp_all
  | interpolatedString verbatim =>
    simp only [step] at h ⊢
    split at h <;> simp_all [escaping, unlessDoubled]
    cases more <;> simp_all
  | brace =>
    simp only [step] at h ⊢
    split at h <;> simp_all
  | characterLiteral => exact h
  | blockComment => simp [step] at h

theorem unlessDoubled_cons (string : Opened) (a : Char) (ahead more : List Char) :
    unlessDoubled string (a :: (ahead ++ more)) = unlessDoubled string (a :: ahead) := by
  unfold unlessDoubled
  split <;> simp_all

/-- Around an expression a step may look ahead for two characters, but never over the end of what it opens. -/
theorem step_brace {c a : Char} {ahead more : List Char} {opened outer : List Opened}
    (h : brace.step c (a :: ahead) = .ok opened) (hread : (read (opened ++ outer) (a :: ahead)).fault = none)
    (hmore : more.head? ≠ some '"') : brace.step c (a :: (ahead ++ more)) = .ok opened := by
  rw [← h]
  cases ahead with
  | cons a' ahead =>
    simp only [step, characterBody]
    split <;> simp_all
    · split <;> simp_all
    · split <;> simp_all
  | nil =>
    by_cases hc : c = '\''
    · subst hc
      have ha : a ≠ '\\' := by
        rintro rfl
        cases h
        cases hread
      simp [step, characterBody, ha]
    · simp only [step]
      cases more with
      | nil => rfl
      | cons m more =>
        split <;> simp_all

theorem step_extend {o : Opened} {c : Char} {ahead more : List Char} {opened outer : List Opened}
    (h : o.step c ahead = .ok opened) (hread : (read (opened ++ outer) ahead).fault = none)
    (hmore : more.head? ≠ some '"') : o.step c (ahead ++ more) = .ok opened := by
  cases ahead with
  | nil =>
    have hclosed : opened = [] := by
      cases opened with
      | nil => rfl
      | cons o opened => cases hread
    subst hclosed
    exact step_nil h hmore
  | cons a ahead =>
    cases o with
    | brace => exact step_brace h hread hmore
    | anyCharacter | regularString | rawString | characterLiteral => exact h
    | verbatimString =>
      rw [← h]
      simp only [List.cons_append, step, unlessDoubled_cons]
    | interpolatedString verbatim =>
      rw [← h]
      simp only [List.cons_append, step, escaping, unlessDoubled_cons]
      split <;> simp_all
    | blockComment =>
      rw [← h]
      simp only [step]
      split <;> simp_all

/-- A text in which everything is closed is read in the same way in front of anything but a quote. -/
theorem read_extend {stack : List Opened} {text more : List Char} (h : (read stack text).fault = none)
    (hmore : more.head? ≠ some '"') :
    read stack (text ++ more) = { read stack text with rest := (read stack text).rest ++ more } := by
  fun_induction read stack text with
  | case1 text => simp [read]
  | case2 | case3 => cases h
  | case4 innermost outer c ahead opened hstep ih =>
    -- Reading goes on without a fault, so that the step did not depend on what follows.
    rw [List.cons_append, read, step_extend hstep h hmore]
    simp only
    rw [ih h]
    rfl

/-! ### Where reading stops early -/

theorem step_error {o : Opened} {c : Char} {ahead : List Char} {fault : LexicalFault}
    (h : o.step c ahead = .error fault) :
    c = '\n' ∧ (fault = .unterminatedString ∨ fault = .unterminatedCharacter) := by
  cases o <;> simp only [step] at h <;> grind

/-- Reading stops early only at the end of a line or of the text. -/
theorem atLineEnd_of_fault {stack : List Opened} {text : List Char} {fault : LexicalFault}
    (h : (read stack text).fault = some fault) : AtLineEnd (read stack text).rest := by
  fun_induction read stack text with
  | case1 text => cases h
  | case2 => simp [AtLineEnd]
  | case3 innermost outer c ahead fault hstep =>
    intro d hd
    cases hd
    exact (step_error hstep).1
  | case4 innermost outer c ahead opened hstep ih => exact ih h

/-- What may reach over the end of a line and opens nothing that may not. -/
def isMultiline : Opened → Bool
  | anyCharacter | verbatimString | rawString _ _ | blockComment => true
  | regularString | interpolatedString _ | brace | characterLiteral => false

theorem step_of_isMultiline {o : Opened} (ho : o.isMultiline) (c : Char) (ahead : List Char) :
    ∃ opened, o.step c ahead = .ok opened ∧ ∀ o' ∈ opened, o'.isMultiline := by
  cases o with
  | anyCharacter => exact ⟨[], rfl, by simp⟩
  | verbatimString =>
    refine ⟨_, rfl, ?_⟩
    unfold unlessDoubled
    grind [isMultiline]
  | rawString quotes seen =>
    simp only [step]
    split
    · split <;> exact ⟨_, rfl, by simp [isMultiline]⟩
    · exact ⟨_, rfl, by simp [isMultiline]⟩
  | blockComment =>
    simp only [step]
    split <;> exact ⟨_, rfl, by simp [isMultiline]⟩
  | regularString | interpolatedString | brace | characterLiteral => cases ho

theorem rest_eq_nil_of_fault {stack : List Opened} {text : List Char} {fault : LexicalFault}
    (hstack : ∀ o ∈ stack, o.isMultiline) (h : (read stack text).fault = some fault) :
    (read stack text).rest = [] := by
  fun_induction read stack text with
  | case1 text => cases h
  | case2 => rfl
  | case3 innermost outer c ahead _ hstep =>
    obtain ⟨opened, hopened, -⟩ := step_of_isMultiline (hstack innermost (List.mem_cons_self ..)) c ahead
    cases hopened.symm.trans hstep
  | case4 innermost outer c ahead opened hstep ih =>
    obtain ⟨_, hopened, hmultiline⟩ := step_of_isMultiline (hstack innermost (List.mem_cons_self ..)) c ahead
    cases hopened.symm.trans hstep
    refine ih (fun o ho => ?_) h
    rcases List.mem_append.mp ho with ho | ho
    · exact hmultiline o ho
    · exact hstack o (List.mem_cons_of_mem _ ho)

/-! ### Texts that close everything -/

/-- Everything is closed at the end of the text, and not before. -/
def Closes (stack : List Opened) (text : List Char) : Prop := read stack text = ⟨text, [], none⟩

instance (stack : List Opened) (text : List Char) : Decidable (Closes stack text) := inferInstanceAs (Decidable (_ = _))

theorem closes_iff {stack : List Opened} {text : List Char} :
    Closes stack text ↔ (read stack text).fault = none ∧ (read stack text).rest = [] := by
  have htext := read_append stack text
  constructor
  · intro h
    rw [Closes] at h
    simp [h]
  · rintro ⟨hfault, hrest⟩
    rw [hrest, List.append_nil] at htext
    rw [Closes]
    exact Extent.mk.injEq .. |>.mpr ⟨htext, hrest, hfault⟩

theorem closes_cons_iff {o : Opened} {c : Char} {ahead : List Char} {opened : List Opened}
    (h : o.step c ahead = .ok opened) (outer : List Opened) :
    Closes (o :: outer) (c :: ahead) ↔ Closes (opened ++ outer) ahead := by
  rw [closes_iff, closes_iff, read, h]
  rfl

theorem closes_replicate_iff (outer : List Opened) (before text : List Char) :
    Closes (List.replicate before.length .anyCharacter ++ outer) (before ++ text) ↔ Closes outer text := by
  rw [closes_iff, closes_iff, read_replicate]
  rfl

theorem read_of_closes {stack : List Opened} {text more : List Char} (h : Closes stack text)
    (hmore : more.head? ≠ some '"') : read stack (text ++ more) = ⟨text, more, none⟩ := by
  rw [read_extend (closes_iff.mp h).1 hmore, h]
  rfl

/-- Behind a text that closes the inner stack, the outer one is left. -/
theorem closes_append_iff {inner outer : List Opened} {text more : List Char} (h : Closes inner text)
    (hmore : more.head? ≠ some '"') : Closes (inner ++ outer) (text ++ more) ↔ Closes outer more := by
  rw [closes_iff, closes_iff, read_append_stack, read_of_closes h hmore]
  rfl

end Opened

namespace Lexeme

/-- White space begins and ends no string, character literal or block comment. -/
theorem isWhitespace_delimiter {c : Char} (hc : c ∈ ['/', '"', '@', '$', '\'']) : Unicode.isWhitespace c = false := by
  simp only [List.mem_cons, List.not_mem_nil, or_false] at hc
  rcases hc with rfl | rfl | rfl | rfl | rfl <;> decide

/-- What opens a string, a character literal or a block comment is read as one. -/
theorem ofText_of_opening {atLineStart : Bool} {c : Char} {ahead : List Char} {kind : TokenKind}
    {stack : List Opened} (h : opening? (c :: ahead) = some (kind, stack)) :
    ofText atLineStart c ahead = delimited kind stack (c :: ahead) := by
  have hfirst : c ∈ ['/', '"', '@', '$', '\''] ∧ (c == '/' && ahead.head? == some '/') = false ∧ c ≠ '#' := by
    unfold opening? at h
    split at h <;> simp_all
  obtain ⟨hmember, hcomment, hdirective⟩ := hfirst
  unfold ofText
  simp [isWhitespace_delimiter hmember, hcomment, hdirective, h]

end Lexeme

end CSharpStyle
