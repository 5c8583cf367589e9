import CSharpStyle.Grammar.CompilationUnit
import CSharpStyle.Proofs.Grammar.Brackets

/-!
# The depth of braces

How many braces are open behind some tokens is counted without regard to any grammar. The brackets of all kinds that are
open are known as well, as long as each is closed by one of its kind.

* `Token.braceDepth`: the number of open braces, or `none` if a brace was closed that was not opened.
* `Token.Orderly`: brackets are closed by their kind, and no brace stands where reading overlooks it.
* `Cursor.Stands`: where a cursor stands among the brackets.
* `Cursor.lockstep_level`: readers of types, names and headers neither leave the braces that they began in nor enter
  others.
-/

namespace CSharpStyle

namespace Token

def isBrace (t : Token) : Bool := t.isPunctuation "\x7b" || t.isPunctuation "\x7d"

/-- The number of open braces behind a token that stands behind `n` of them. -/
def braceStep (n : Nat) (t : Token) : Option Nat :=
  if t.isPunctuation "\x7b" then some (n + 1)
  else if t.isPunctuation "\x7d" then if n = 0 then none else some (n - 1)
  else some n

/-- The number of braces that are still open behind the tokens, if none was closed that was not opened. -/
def braceDepth (tokens : List Token) : Option Nat := tokens.foldlM braceStep 0

/-- Every brace is closed, and closes one that was opened. -/
def Balanced (tokens : List Token) : Prop := braceDepth tokens = some 0

instance (tokens : List Token) : Decidable (Balanced tokens) := inferInstanceAs (Decidable (_ = _))

/-- The closers of the brackets that are open behind a token, the innermost first, if `pending` were open before. -/
def awaited (pending : List String) (t : Token) : List String :=
  if t.isOpener then closing t.text :: pending else if t.isCloser then pending.tail else pending

/-- A closer closes the innermost bracket, if there is one. -/
def fits (pending : List String) (t : Token) : Bool := !t.isCloser || pending.head?.all (· == t.text)

/-- No brace opens in front of the next `;` or closing brace. -/
def opensNone (tokens : List Token) : Bool :=
  (tokens.takeWhile fun t => !(t.isPunctuation ";" || t.isPunctuation "\x7d")).all (!·.isPunctuation "\x7b")

/-- There is no brace in an array rank or between the word `operator` and the next parenthesis, and a using directive
opens none. -/
def isPlain (t : Token) (rest : List Token) : Bool :=
  (!(t.isPunctuation "[" && rest.head?.any (·.isPunctuation ",")) ||
      (rest.takeWhile (!·.isPunctuation "]")).all (!·.isBrace)) &&
    (!t.isKeyword "operator" || (rest.takeWhile (!·.isPunctuation "(")).all (!·.isBrace)) &&
    (!Cursor.seesUsingDirective ⟨[], t :: rest⟩ || opensNone (t :: rest))

/-- The tokens are orderly inside the brackets that the closers in `pending` close. -/
def isOrderly : List String → List Token → Bool
  | _, [] => true
  | pending, t :: rest => t.fits pending && t.isPlain rest && isOrderly (t.awaited pending) rest

/-- Brackets are closed by their kind, and no brace stands where reading overlooks it. -/
def Orderly (tokens : List Token) : Prop := isOrderly [] tokens

instance (tokens : List Token) : Decidable (Orderly tokens) := inferInstanceAs (Decidable (_ = _))

variable {pending : List String} {t : Token} {rest : List Token}

theorem braceDepth_concat (tokens : List Token) (t : Token) :
    braceDepth (tokens ++ [t]) = (braceDepth tokens).bind (braceStep · t) := by
  simp only [braceDepth, List.foldlM_append, List.foldlM_cons, List.foldlM_nil, bind_pure]
  rfl

theorem isOrderly_cons (h : isOrderly pending (t :: rest) = true) :
    t.fits pending = true ∧ t.isPlain rest = true ∧ isOrderly (t.awaited pending) rest = true := by
  rw [isOrderly, Bool.and_eq_true, Bool.and_eq_true, and_assoc] at h
  exact h

theorem not_isBrace_of_not_isWall (h : t.isWall = false) : t.isBrace = false := by
  rw [isWall, Bool.or_assoc, Bool.or_eq_false_iff] at h
  exact h.2

theorem isOpener_cases (h : t.isOpener = true) :
    t.isPunctuation "(" = true ∨ t.isPunctuation "[" = true ∨ t.isPunctuation "\x7b" = true := by
  simpa only [isOpener, isPunctuation, Bool.and_eq_true, Bool.or_eq_true, beq_iff_eq, or_assoc,
    ← and_or_left] using h

theorem isCloser_cases (h : t.isCloser = true) :
    t.isPunctuation ")" = true ∨ t.isPunctuation "]" = true ∨ t.isPunctuation "\x7d" = true := by
  simpa only [isCloser, isPunctuation, Bool.and_eq_true, Bool.or_eq_true, beq_iff_eq, or_assoc,
    ← and_or_left] using h

theorem isOpener_of_brace (h : t.isPunctuation "\x7b" = true) : t.isOpener = true := by
  obtain ⟨hkind, htext⟩ := eq_of_isPunctuation h
  simp [isOpener, hkind, htext]

theorem isCloser_of_brace (h : t.isPunctuation "\x7d" = true) : t.isCloser = true := by
  obtain ⟨hkind, htext⟩ := eq_of_isPunctuation h
  simp [isCloser, hkind, htext]

theorem not_closing_of_isOpener (h : t.isOpener = true) : ¬t.isPunctuation "\x7d" = true := fun hclose =>
  absurd (isCloser_of_brace hclose) (Bool.eq_false_iff.mp (isCloser_eq_false h))

theorem awaited_of_isOpener (h : t.isOpener = true) : t.awaited pending = closing t.text :: pending := if_pos h

theorem awaited_of_isCloser (h : t.isCloser = true) : t.awaited pending = pending.tail := by
  cases hopen : t.isOpener with
  | true => rw [isCloser_eq_false hopen] at h; cases h
  | false => rw [awaited, hopen, if_neg Bool.false_ne_true, if_pos h]

theorem awaited_of_other (hopen : t.isOpener = false) (hclose : t.isCloser = false) : t.awaited pending = pending := by
  rw [awaited, hopen, hclose]
  rfl

/-- A closer that fits is the one that the innermost bracket awaits. -/
theorem head_of_isCloser {closer : String} {outer : List String} (h : t.fits (closer :: outer) = true)
    (hclose : t.isCloser = true) : closer = t.text := by
  simpa [fits, hclose] using h

/-- The depth of braces is the number of braces among the awaited closers. -/
theorem braceStep_count (hfits : t.fits pending = true) (hopen : t.isPunctuation "\x7d" = true → pending ≠ []) :
    braceStep (pending.count "\x7d") t = some ((t.awaited pending).count "\x7d") := by
  by_cases hbrace : t.isPunctuation "\x7b" = true
  · have htext := (eq_of_isPunctuation hbrace).2
    rw [braceStep, if_pos hbrace, awaited_of_isOpener (isOpener_of_brace hbrace), htext]
    simp [closing]
  · rw [braceStep, if_neg hbrace]
    by_cases hclosing : t.isPunctuation "\x7d" = true
    · have hcloser := isCloser_of_brace hclosing
      cases pending with
      | nil => exact absurd rfl (hopen hclosing)
      | cons closer outer =>
        have hhead := head_of_isCloser hfits hcloser
        rw [(eq_of_isPunctuation hclosing).2] at hhead
        rw [if_pos hclosing, awaited_of_isCloser hcloser, hhead]
        simp
    · rw [if_neg hclosing]
      cases hopener : t.isOpener with
      | true =>
        have hkind : closing t.text ≠ "\x7d" := by
          rcases isOpener_cases hopener with h | h | h
          · rw [(eq_of_isPunctuation h).2]; decide
          · rw [(eq_of_isPunctuation h).2]; decide
          · exact absurd h hbrace
        rw [awaited_of_isOpener hopener, List.count_cons_of_ne hkind]
      | false =>
        cases hcloser : t.isCloser with
        | false => rw [awaited_of_other hopener hcloser]
        | true =>
          rw [awaited_of_isCloser hcloser]
          cases pending with
          | nil => rfl
          | cons closer outer =>
            have hhead := head_of_isCloser hfits hcloser
            have hkind : t.text ≠ "\x7d" := by
              rcases isCloser_cases hcloser with h | h | h
              · rw [(eq_of_isPunctuation h).2]; decide
              · rw [(eq_of_isPunctuation h).2]; decide
              · exact absurd h hclosing
            rw [hhead, List.tail_cons, List.count_cons_of_ne hkind]

theorem opensNone_of_cons (h : opensNone (t :: rest) = true) (hwall : t.isWall = false) : opensNone rest = true := by
  rw [isWall, Bool.or_eq_false_iff, Bool.or_eq_false_iff] at hwall
  simp only [opensNone, List.takeWhile_cons, hwall.1.1, hwall.2, Bool.or_false, Bool.not_false, if_true,
    List.all_cons, Bool.and_eq_true] at h
  exact h.2

end Token

/-- The body that is being read: a file, or a body in braces with the brackets around these. -/
inductive Floor
  | file
  | inside (outer : List String)

/-- The closers that are awaited in the body, if it has opened no brackets of its own. -/
def Floor.closers : Floor → List String
  | file => []
  | inside outer => "\x7d" :: outer

namespace Cursor

variable {pending : List String} {floor : Floor} {c d : Cursor} {t : Token}

/-- The cursor stands behind brackets that await the closers in `pending`, and what is ahead is orderly in them. -/
structure Stands (pending : List String) (c : Cursor) : Prop where
  orderly : Token.isOrderly pending c.ahead = true
  depth : Token.braceDepth c.before.reverse = some (pending.count "\x7d")

/-- All tokens are consumed, and no brace among them closes one that was not opened. -/
def AtEnd (c : Cursor) : Prop := c.ahead = [] ∧ ∃ pending, c.Stands pending

/-- The cursor stands in the body with no further brace opened, or at the end of the text. -/
def Level (floor : Floor) (c : Cursor) : Prop :=
  (∃ inner, "\x7d" ∉ inner ∧ c.Stands (inner ++ floor.closers)) ∨ c.AtEnd

namespace Stands

theorem fits (h : c.Stands pending) (hpeek : c.peek? = some t) : t.fits pending = true := by
  obtain ⟨before, _ | ⟨u, ahead⟩⟩ := c
  · cases hpeek
  · cases hpeek
    exact (Token.isOrderly_cons h.orderly).1

theorem next (h : c.Stands pending) (hpeek : c.peek? = some t)
    (hopen : t.isPunctuation "\x7d" = true → pending ≠ []) : c.next.Stands (t.awaited pending) := by
  have hfits := h.fits hpeek
  obtain ⟨before, _ | ⟨u, ahead⟩⟩ := c
  · cases hpeek
  · cases hpeek
    constructor
    · exact (Token.isOrderly_cons h.orderly).2.2
    · have hdepth : Token.braceDepth before.reverse = some (pending.count "\x7d") := h.depth
      simp only [Cursor.next, List.headD_cons, List.reverse_cons, Token.braceDepth_concat, hdepth, Option.bind_some]
      exact Token.braceStep_count hfits hopen

/-- Behind the last token nothing opens or closes a brace. -/
theorem next_of_end (h : c.Stands pending) (hend : c.ahead = []) : c.next.Stands pending := by
  obtain ⟨before, ahead⟩ := c
  cases hend
  refine ⟨h.orderly, ?_⟩
  have hdepth : Token.braceDepth before.reverse = some (pending.count "\x7d") := h.depth
  simp only [Cursor.next, List.headD_nil, List.reverse_cons, Token.braceDepth_concat, hdepth, Option.bind_some]
  rfl

/-- The brackets that were opened inside a group are closed with it, or the text ends. -/
theorem skipBrackets {closer : String} {inner : List String} {before ahead : List Token}
    (h : Stands (inner ++ closer :: pending) ⟨before, ahead⟩) :
    (Cursor.skipBrackets (inner.length + 1) before ahead).Stands pending ∨
      (Cursor.skipBrackets (inner.length + 1) before ahead).AtEnd := by
  induction ahead generalizing inner before with
  | nil => exact .inr ⟨rfl, _, h⟩
  | cons t ahead ih =>
    have hnext := h.next rfl fun _ => by simp
    simp only [Cursor.skipBrackets]
    split
    · rename_i hopen
      rw [Token.awaited_of_isOpener hopen] at hnext
      exact ih (show Stands ((closing t.text :: inner) ++ closer :: pending) _ from hnext)
    · rename_i hopen
      split
      · rename_i hclose
        rw [Token.awaited_of_isCloser hclose] at hnext
        cases inner with
        | nil => exact .inl hnext
        | cons first inner => exact ih hnext
      · rename_i hclose
        rw [Token.awaited_of_other (Bool.eq_false_iff.mpr hopen) (Bool.eq_false_iff.mpr hclose)] at hnext
        exact ih hnext

theorem skipGroup (h : c.Stands pending) (hopen : c.peek?.any (·.isOpener) = true) :
    c.skipGroup.Stands pending ∨ c.skipGroup.AtEnd := by
  obtain ⟨before, _ | ⟨t, ahead⟩⟩ := c
  · cases hopen
  · have hopen : t.isOpener = true := hopen
    have hnext := h.next rfl fun hclose => absurd hclose (Token.not_closing_of_isOpener hopen)
    rw [Token.awaited_of_isOpener hopen] at hnext
    rw [Cursor.skipGroup, Cursor.skipBrackets, if_pos hopen]
    exact skipBrackets (show Stands ([] ++ closing t.text :: pending) _ from hnext)

/-- Braces are not counted in attributes. As they are closed as well, the other brackets tell where a section ends. -/
theorem attributeTokens {inner : List String} {depth : Nat} {before ahead : List Token} (found : Bool)
    (h : Stands (inner ++ "]" :: pending) ⟨before, ahead⟩) (hdepth : depth = inner.countP (· != "\x7d") + 1) :
    (Cursor.attributeTokens depth found before ahead).2.Stands pending ∨
      (Cursor.attributeTokens depth found before ahead).2.AtEnd := by
  induction ahead generalizing inner depth before found with
  | nil => exact .inr ⟨rfl, _, h⟩
  | cons t ahead ih =>
    have hfits := h.fits rfl
    have hnext := h.next rfl fun _ => by simp
    simp only [Cursor.attributeTokens]
    split
    · rename_i hmark
      obtain ⟨hopen, hcloser⟩ : t.isOpener = true ∧ closing t.text ≠ "\x7d" := by
        rcases Bool.or_eq_true_iff.mp hmark with hmark | hmark <;>
          obtain ⟨hkind, htext⟩ := Token.eq_of_isPunctuation hmark <;> simp [Token.isOpener, closing, hkind, htext]
      rw [Token.awaited_of_isOpener hopen] at hnext
      exact ih found (show Stands ((closing t.text :: inner) ++ "]" :: pending) _ from hnext)
        (by simp [hcloser, hdepth])
    · rename_i hopen
      split
      · rename_i hmark
        obtain ⟨hclose, htext⟩ : t.isCloser = true ∧ t.text ≠ "\x7d" := by
          rcases Bool.or_eq_true_iff.mp hmark with hmark | hmark <;>
            obtain ⟨hkind, htext⟩ := Token.eq_of_isPunctuation hmark <;> simp [Token.isCloser, hkind, htext]
        rw [Token.awaited_of_isCloser hclose] at hnext
        cases inner with
        | nil =>
          rw [if_pos (by simp [hdepth])]
          exact .inl hnext
        | cons first inner =>
          rw [Token.head_of_isCloser hfits hclose, List.countP_cons_of_pos (by simpa using htext)] at hdepth
          rw [if_neg (by omega)]
          exact ih found hnext (by omega)
      · rename_i hclose
        -- A brace, or no bracket at all.
        rw [Bool.or_eq_true, not_or] at hopen hclose
        by_cases hbrace : t.isPunctuation "\x7b" = true
        · rw [Token.awaited_of_isOpener (Token.isOpener_of_brace hbrace),
            (Token.eq_of_isPunctuation hbrace).2] at hnext
          exact ih _ (show Stands (("\x7d" :: inner) ++ "]" :: pending) _ from hnext) (by simpa using hdepth)
        · by_cases hclosing : t.isPunctuation "\x7d" = true
          · have hcloser := Token.isCloser_of_brace hclosing
            have htext := (Token.eq_of_isPunctuation hclosing).2
            rw [Token.awaited_of_isCloser hcloser] at hnext
            cases inner with
            | nil =>
              have hhead := Token.head_of_isCloser hfits hcloser
              rw [htext] at hhead
              exact absurd hhead (by decide)
            | cons first inner =>
              rw [Token.head_of_isCloser hfits hcloser, htext] at hdepth
              exact ih _ hnext (by simpa using hdepth)
          · have hopener : t.isOpener = false := Bool.eq_false_iff.mpr fun h => by
              rcases Token.isOpener_cases h with h | h | h
              exacts [hopen.2 h, hopen.1 h, hbrace h]
            have hcloser : t.isCloser = false := Bool.eq_false_iff.mpr fun h => by
              rcases Token.isCloser_cases h with h | h | h
              exacts [hclose.2 h, hclose.1 h, hclosing h]
            rw [Token.awaited_of_other hopener hcloser] at hnext
            exact ih _ hnext hdepth

theorem attributeSection (h : c.Stands pending) (hsees : c.sees "[" = true) :
    c.attributeSection.2.Stands pending ∨ c.attributeSection.2.AtEnd := by
  obtain ⟨before, _ | ⟨t, ahead⟩⟩ := c
  · cases hsees
  · have hbracket : t.isPunctuation "[" = true := hsees
    obtain ⟨hkind, htext⟩ := Token.eq_of_isPunctuation hbracket
    have hnext := h.next rfl fun hclose => by simp [Token.isPunctuation, htext] at hclose
    rw [Token.awaited_of_isOpener (by simp [Token.isOpener, hkind, htext]), htext] at hnext
    simp only [Cursor.attributeSection, Cursor.attributeTokens, hbracket, Bool.true_or, if_true]
    exact attributeTokens false (show Stands ([] ++ "]" :: pending) _ from hnext) rfl

end Stands

namespace Level

theorem of_stands (h : c.Stands floor.closers) : c.Level floor := .inl ⟨[], List.not_mem_nil, h⟩

/-- Where a token is ahead, the text has not ended. -/
theorem stands (h : c.Level floor) (hpeek : c.peek? = some t) :
    ∃ inner, "\x7d" ∉ inner ∧ c.Stands (inner ++ floor.closers) := by
  refine h.resolve_right fun hend => ?_
  simp [peek?, hend.1] at hpeek

/-- Tokens other than braces do not leave the body. -/
theorem next (h : c.Level floor) (hbrace : c.peek?.any (·.isBrace) = false) : c.next.Level floor := by
  obtain ⟨before, _ | ⟨t, ahead⟩⟩ := c
  · rcases h with ⟨inner, -, hstands⟩ | ⟨hend, pending, hstands⟩
    · exact .inr ⟨rfl, _, hstands.next_of_end rfl⟩
    · exact .inr ⟨rfl, _, hstands.next_of_end rfl⟩
  · have hnone : t.isPunctuation "\x7b" = false ∧ t.isPunctuation "\x7d" = false := Bool.or_eq_false_iff.mp hbrace
    obtain ⟨inner, hinner, hstands⟩ := h.stands rfl
    have hfits := hstands.fits rfl
    have hnext := hstands.next rfl fun hclose => by rw [hnone.2] at hclose; cases hclose
    cases hopen : t.isOpener with
    | true =>
      rw [Token.awaited_of_isOpener hopen] at hnext
      refine .inl ⟨closing t.text :: inner, fun hmem => ?_, hnext⟩
      rcases List.mem_cons.mp hmem with hcloser | hmem
      · rcases Token.isOpener_cases hopen with hmark | hmark | hmark
        · rw [(Token.eq_of_isPunctuation hmark).2] at hcloser; exact absurd hcloser (by decide)
        · rw [(Token.eq_of_isPunctuation hmark).2] at hcloser; exact absurd hcloser (by decide)
        · rw [hnone.1] at hmark; cases hmark
      · exact hinner hmem
    | false =>
      cases hclose : t.isCloser with
      | false =>
        rw [Token.awaited_of_other hopen hclose] at hnext
        exact .inl ⟨inner, hinner, hnext⟩
      | true =>
        rw [Token.awaited_of_isCloser hclose] at hnext
        cases inner with
        | cons closer inner => exact .inl ⟨inner, fun hmem => hinner (List.mem_cons_of_mem _ hmem), hnext⟩
        | nil =>
          -- The innermost bracket is a brace, or there is none.
          cases floor with
          | file => exact .inl ⟨[], List.not_mem_nil, hnext⟩
          | inside outer =>
            have hhead : "\x7d" = t.text := Token.head_of_isCloser hfits hclose
            have hkind := (Bool.and_eq_true_iff.mp hclose).1
            have hclosing : t.isPunctuation "\x7d" = true := by rw [Token.isPunctuation, hkind, ← hhead]; rfl
            rw [hclosing] at hnone
            cases hnone.2

theorem skipGroup (h : c.Level floor) (hopen : c.peek?.any (·.isOpener) = true) :
    c.skipGroup.Level floor := by
  obtain ⟨t, ht, -⟩ := (Option.any_eq_true _ _).mp hopen
  obtain ⟨inner, hinner, hstands⟩ := h.stands ht
  exact (hstands.skipGroup hopen).imp_left fun hbehind => ⟨inner, hinner, hbehind⟩

theorem attributeSection (h : c.Level floor) (hsees : c.sees "[" = true) :
    c.attributeSection.2.Level floor := by
  obtain ⟨t, ht, -⟩ := exists_of_sees hsees
  obtain ⟨inner, hinner, hstands⟩ := h.stands ht
  exact (hstands.attributeSection hsees).imp_left fun hbehind => ⟨inner, hinner, hbehind⟩

/-- Skipping tokens that are not braces. -/
theorem skipWhile {p : Token → Bool} (h : c.Level floor)
    (hbraces : (c.ahead.takeWhile p).all (!·.isBrace) = true) : (c.skipWhile p).Level floor := by
  induction hsize : c.size using Nat.strongRecOn generalizing c with
  | ind n ih =>
    rw [skipWhile_eq]
    split
    · rename_i hp
      obtain ⟨before, _ | ⟨t, ahead⟩⟩ := c
      · cases hp
      · have ht : p t = true := hp
        rw [List.takeWhile_cons_of_pos ht, List.all_cons, Bool.and_eq_true] at hbraces
        have hbrace : t.isBrace = false := by simpa using hbraces.1
        exact ih ahead.length (hsize ▸ Nat.lt_succ_self _) (h.next hbrace) hbraces.2 rfl
    · exact h

/-- An array rank has no braces. -/
theorem skipRank (h : c.Level floor) (hsees : c.sees "[" = true)
    (hrank : (c.seesSecond "]" || c.seesSecond ",") = true) : (c.skipPast "]").Level floor := by
  obtain ⟨t, ht, hbracket⟩ := exists_of_sees hsees
  obtain ⟨inner, -, hstands⟩ := h.stands ht
  have hnone : (c.ahead.takeWhile (!·.isPunctuation "]")).all (!·.isBrace) = true := by
    obtain ⟨before, _ | ⟨u, ahead⟩⟩ := c
    · cases ht
    · cases ht
      have hplain := (Token.isOrderly_cons hstands.orderly).2.1
      rw [Token.isPlain, hbracket, Bool.true_and, Bool.and_eq_true, Bool.and_eq_true] at hplain
      have hinside : (ahead.takeWhile (!·.isPunctuation "]")).all (!·.isBrace) = true := by
        cases ahead with
        | nil => rfl
        | cons second ahead =>
          rcases Bool.or_eq_true_iff.mp hrank with hclose | hcomma
          · have hclose : second.isPunctuation "]" = true := hclose
            rw [List.takeWhile_cons_of_neg (by simp [hclose])]
            rfl
          · have hcomma : second.isPunctuation "," = true := hcomma
            simpa [hcomma] using hplain.1.1
      rw [List.takeWhile_cons_of_pos (by simp [Token.isPunctuation_of_ne hbracket]), List.all_cons, hinside,
        Token.isBrace, Token.isPunctuation_of_ne hbracket (by decide), Token.isPunctuation_of_ne hbracket (by decide)]
      rfl
  have hstop := h.skipWhile hnone
  simp only [skipPast]
  split
  · exact hstop
  · refine hstop.next ?_
    cases hpeek : (c.skipWhile (!·.isPunctuation "]")).peek? with
    | none => rfl
    | some u =>
      have hmark : u.isPunctuation "]" = true := by
        have hhead : (c.ahead.dropWhile (!·.isPunctuation "]")).head? = some u := hpeek
        have hnot := List.head?_dropWhile_not (!·.isPunctuation "]") c.ahead
        rw [hhead] at hnot
        simpa using hnot
      rw [Option.any_some, Token.isBrace, Token.isPunctuation_of_ne hmark (by decide),
        Token.isPunctuation_of_ne hmark (by decide)]
      rfl

end Level

/-- Readers of types, names and headers stay in the body that they began in. -/
theorem lockstep_level (floor : Floor) : Lockstep Eq fun c d => c = d ∧ c.Level floor :=
  .ofInvariant (fun h hpeek hwall => h.next (by rw [hpeek]; exact Token.not_isBrace_of_not_isWall hwall)) .skipGroup
    .attributeSection .skipRank

end Cursor

end CSharpStyle
