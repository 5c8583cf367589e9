import CSharpStyle.Proofs.Grammar.Brackets
import CSharpStyle.Proofs.Grammar.ClassFile

/-!
# Cursors inside a member

Two files have the same member, with a `;` behind it, and go on differently. As long as the cursors are inside the
member, the readers of types, names, headers and patterns cannot tell the files apart: every bracket of the member is
closed in it, so no reader gets past the `;`.

* `Token.Contained`: text that can stand between two marks of a type body.
* `Cursor.Inside`: the cursors are in front of the same rest of the member.
* `Cursor.Inside.lockstep`: readers move such cursors alike.
-/

namespace CSharpStyle

namespace Token

/-- Text without `;` and braces that closes the brackets it opens. -/
structure Contained (text : List Token) : Prop where
  closed : ∃ closers, unmatched text = some closers
  noSemicolon {t : Token} : t ∈ text → t.isPunctuation ";" = false
  noBrace {t : Token} : t ∈ text → t.isPunctuation "\x7b" = false ∧ t.isPunctuation "\x7d" = false

/-- A closer that is left to be matched occurs in the text. -/
theorem exists_of_mem_unmatched {text : List Token} {closer : String} {closers : List String}
    (h : unmatched text = some closers) (hmem : closer ∈ closers) : ∃ t ∈ text, t.isPunctuation closer := by
  induction text generalizing closers with
  | nil =>
    cases h
    cases hmem
  | cons t text ih =>
    have hcons : (∃ u ∈ text, u.isPunctuation closer) → ∃ u ∈ t :: text, u.isPunctuation closer :=
      fun ⟨u, hu, hcloser⟩ => ⟨u, List.mem_cons_of_mem _ hu, hcloser⟩
    by_cases hopen : t.isOpener
    · exact hcons (ih (unmatched_of_opener h hopen) (List.mem_cons_of_mem _ hmem))
    · by_cases hclose : t.isCloser
      · obtain ⟨closers, rfl, hrest⟩ := unmatched_of_closer h hclose
        rcases List.mem_cons.mp hmem with rfl | hmem
        · refine ⟨t, List.mem_cons_self .., ?_⟩
          rw [isCloser, Bool.and_eq_true] at hclose
          rw [isPunctuation, hclose.1, beq_self_eq_true, Bool.and_self]
        · exact hcons (ih hrest hmem)
      · exact hcons (ih (unmatched_of_other hopen hclose ▸ h) hmem)

theorem not_semicolon_of_isOpener {t : Token} (h : t.isOpener) : t.isPunctuation ";" = false := by
  cases hmark : t.isPunctuation ";" with
  | false => rfl
  | true =>
    obtain ⟨hkind, htext⟩ := eq_of_isPunctuation hmark
    simp [isOpener, hkind, htext] at h

theorem Contained.tail {t : Token} {text : List Token} (h : Contained (t :: text)) : Contained text where
  closed := exists_unmatched h.closed.choose_spec
  noSemicolon ht := h.noSemicolon (List.mem_cons_of_mem _ ht)
  noBrace ht := h.noBrace (List.mem_cons_of_mem _ ht)

theorem Contained.of_suffix {text behind : List Token} (h : Contained text) (hsuffix : behind <:+ text) :
    Contained behind := by
  obtain ⟨front, rfl⟩ := hsuffix
  induction front with
  | nil => exact h
  | cons t front ih => exact ih h.tail

end Token

namespace Cursor

open Token

/-- A group that is closed in the text ends in the text. -/
theorem skipBrackets_append {depth : Nat} {text : List Token} {closers : List String}
    (h : unmatched text = some closers) (hpos : 0 < depth) (hdepth : depth ≤ closers.length) :
    ∃ behind, behind <:+ text ∧ ∀ before rest, (skipBrackets depth before (text ++ rest)).ahead = behind ++ rest := by
  induction text generalizing depth closers with
  | nil =>
    cases h
    exact absurd hpos (Nat.not_lt_of_le hdepth)
  | cons t text ih =>
    by_cases hopen : t.isOpener
    · obtain ⟨behind, hsuffix, hbehind⟩ := ih (unmatched_of_opener h hopen) (Nat.succ_pos depth)
        (Nat.succ_le_succ hdepth)
      refine ⟨behind, hsuffix.trans (List.suffix_cons t text), fun before rest => ?_⟩
      rw [List.cons_append, skipBrackets, if_pos hopen, hbehind]
    · by_cases hclose : t.isCloser
      · obtain ⟨closers, rfl, hrest⟩ := unmatched_of_closer h hclose
        by_cases hlast : depth ≤ 1
        · refine ⟨text, List.suffix_cons t text, fun before rest => ?_⟩
          rw [List.cons_append, skipBrackets, if_neg hopen, if_pos hclose, if_pos hlast]
        · have hpos' : 0 < depth - 1 := by omega
          have hdepth' : depth - 1 ≤ closers.length := by
            rw [List.length_cons] at hdepth
            omega
          obtain ⟨behind, hsuffix, hbehind⟩ := ih hrest hpos' hdepth'
          refine ⟨behind, hsuffix.trans (List.suffix_cons t text), fun before rest => ?_⟩
          rw [List.cons_append, skipBrackets, if_neg hopen, if_pos hclose, if_neg hlast, hbehind]
      · obtain ⟨behind, hsuffix, hbehind⟩ := ih (unmatched_of_other hopen hclose ▸ h) hpos hdepth
        refine ⟨behind, hsuffix.trans (List.suffix_cons t text), fun before rest => ?_⟩
        rw [List.cons_append, skipBrackets, if_neg hopen, if_neg hclose, hbehind]

/-- A group that begins in a text that closes its brackets ends in the text. -/
theorem skipGroup_append {t : Token} {text : List Token} {closers : List String}
    (h : unmatched (t :: text) = some closers) (hopen : t.isOpener) :
    ∃ behind, behind <:+ text ∧
      ∀ before rest, (skipGroup ⟨before, t :: (text ++ rest)⟩).ahead = behind ++ rest := by
  obtain ⟨behind, hsuffix, hbehind⟩ := skipBrackets_append (unmatched_of_opener h hopen) Nat.one_pos
    (Nat.succ_le_succ (Nat.zero_le _))
  refine ⟨behind, hsuffix, fun before rest => ?_⟩
  rw [skipGroup, skipBrackets, if_pos hopen, hbehind]

/-- Text without braces holds the end of each attribute section that begins in it. -/
theorem attributeTokens_append {depth : Nat} (found : Bool) {text : List Token} {closers : List String}
    (h : unmatched text = some closers) (hpos : 0 < depth) (hdepth : depth ≤ closers.length)
    (hbrace : ∀ {t : Token}, t ∈ text → t.isPunctuation "\x7b" = false ∧ t.isPunctuation "\x7d" = false) :
    ∃ found' behind, behind <:+ text ∧ ∀ before rest,
      (attributeTokens depth found before (text ++ rest)).1 = found' ∧
      (attributeTokens depth found before (text ++ rest)).2.ahead = behind ++ rest := by
  induction text generalizing depth found closers with
  | nil =>
    cases h
    exact absurd hpos (Nat.not_lt_of_le hdepth)
  | cons t text ih =>
    have ih {depth : Nat} (found : Bool) {closers : List String} (h : unmatched text = some closers)
        (hpos : 0 < depth) (hdepth : depth ≤ closers.length) := @ih depth found closers h hpos hdepth
      fun hu => hbrace (List.mem_cons_of_mem _ hu)
    obtain ⟨hopener, hcloser⟩ := hbrace (List.mem_cons_self ..)
    have hopener : t.isOpener = (t.isPunctuation "[" || t.isPunctuation "(") := by
      simp only [isOpener, isPunctuation] at hopener ⊢
      cases hkind : t.kind == .punctuation <;> simp_all [Bool.or_comm]
    have hcloser : t.isCloser = (t.isPunctuation "]" || t.isPunctuation ")") := by
      simp only [isCloser, isPunctuation] at hcloser ⊢
      cases hkind : t.kind == .punctuation <;> simp_all [Bool.or_comm]
    simp only [List.cons_append, attributeTokens, ← hopener, ← hcloser]
    by_cases hopen : t.isOpener
    · obtain ⟨found', behind, hsuffix, hbehind⟩ := ih found (unmatched_of_opener h hopen) (Nat.succ_pos depth)
        (Nat.succ_le_succ hdepth)
      simp only [hopen, ↓reduceIte]
      exact ⟨found', behind, hsuffix.trans (List.suffix_cons t text), fun before rest => hbehind _ rest⟩
    · by_cases hclose : t.isCloser
      · obtain ⟨closers, rfl, hrest⟩ := unmatched_of_closer h hclose
        simp only [hopen, hclose, Bool.false_eq_true, ↓reduceIte]
        by_cases hlast : depth ≤ 1
        · simp only [hlast, ↓reduceIte]
          exact ⟨found, text, List.suffix_cons t text, fun before rest => ⟨rfl, rfl⟩⟩
        · have hpos' : 0 < depth - 1 := by omega
          have hdepth' : depth - 1 ≤ closers.length := by
            rw [List.length_cons] at hdepth
            omega
          obtain ⟨found', behind, hsuffix, hbehind⟩ := ih found hrest hpos' hdepth'
          simp only [hlast, ↓reduceIte]
          exact ⟨found', behind, hsuffix.trans (List.suffix_cons t text), fun before rest => hbehind _ rest⟩
      · obtain ⟨found', behind, hsuffix, hbehind⟩ := ih _ (unmatched_of_other hopen hclose ▸ h) hpos hdepth
        simp only [hopen, hclose, Bool.false_eq_true, ↓reduceIte]
        exact ⟨found', behind, hsuffix.trans (List.suffix_cons t text), fun before rest => hbehind _ rest⟩

theorem skipPast_cons (mark : String) (before : List Token) (t : Token) (ahead : List Token) :
    skipPast mark ⟨before, t :: ahead⟩ =
      if t.isPunctuation mark then ⟨t :: before, ahead⟩ else skipPast mark ⟨t :: before, ahead⟩ := by
  rw [skipPast, skipPast, skipWhile_eq]
  cases hmark : t.isPunctuation mark with
  | true => simp [peek?, hmark, next]
  | false => simp [peek?, hmark, next]

/-- A mark that occurs in the text is found there. -/
theorem skipPast_append {mark : String} {text : List Token} (h : ∃ t ∈ text, t.isPunctuation mark) :
    ∃ behind, behind <:+ text ∧ ∀ before rest, (skipPast mark ⟨before, text ++ rest⟩).ahead = behind ++ rest := by
  induction text with
  | nil =>
    obtain ⟨t, ht, -⟩ := h
    cases ht
  | cons t text ih =>
    by_cases hmark : t.isPunctuation mark
    · refine ⟨text, List.suffix_cons t text, fun before rest => ?_⟩
      rw [List.cons_append, skipPast_cons, if_pos hmark]
    · have hrest : ∃ u ∈ text, u.isPunctuation mark := by
        obtain ⟨u, hu, humark⟩ := h
        rcases List.mem_cons.mp hu with rfl | hu
        · exact absurd humark hmark
        · exact ⟨u, hu, humark⟩
      obtain ⟨behind, hsuffix, hbehind⟩ := ih hrest
      refine ⟨behind, hsuffix.trans (List.suffix_cons t text), fun before rest => ?_⟩
      rw [List.cons_append, skipPast_cons, if_neg hmark, hbehind]

/-- A mark that does not occur is looked for up to the end. -/
theorem skipPast_of_forall {mark : String} {c : Cursor} (h : ∀ t ∈ c.ahead, t.isPunctuation mark = false) :
    (c.skipPast mark).ahead = [] := by
  obtain ⟨before, ahead⟩ := c
  induction ahead generalizing before with
  | nil => rfl
  | cons t ahead ih =>
    rw [skipPast_cons, h t (List.mem_cons_self ..), if_neg Bool.false_ne_true]
    exact ih _ fun u hu => h u (List.mem_cons_of_mem _ hu)

/-- The cursors are in front of the same rest of a member. Behind its `;` stand `rest` and `rest'`. -/
def Inside (rest rest' : List Token) (c d : Cursor) : Prop :=
  ∃ text, Contained text ∧ c.ahead = text ++ mark ";" :: rest ∧ d.ahead = text ++ mark ";" :: rest'

namespace Inside

variable {rest rest' : List Token} {c d : Cursor}

/-- The next token is the `;` behind the member, or both cursors move over it inside the member. -/
theorem cases (h : Inside rest rest' c d) :
    (c.ahead = mark ";" :: rest ∧ d.ahead = mark ";" :: rest') ∨
      ∃ t text, Contained (t :: text) ∧ c.ahead = t :: (text ++ mark ";" :: rest) ∧
        d.ahead = t :: (text ++ mark ";" :: rest') ∧ Inside rest rest' c.next d.next := by
  obtain ⟨_ | ⟨t, text⟩, htext, hc, hd⟩ := h
  · exact .inl ⟨hc, hd⟩
  · exact .inr ⟨t, text, htext, hc, hd, text, htext.tail, congrArg List.tail hc, congrArg List.tail hd⟩

theorem of_suffix {text behind : List Token} (htext : Contained text) (hsuffix : behind <:+ text)
    (hc : c.ahead = behind ++ mark ";" :: rest) (hd : d.ahead = behind ++ mark ";" :: rest') :
    Inside rest rest' c d :=
  ⟨behind, htext.of_suffix hsuffix, hc, hd⟩

theorem peek_eq (h : Inside rest rest' c d) : c.peek? = d.peek? := by
  rcases h.cases with ⟨hc, hd⟩ | ⟨t, text, -, hc, hd, -⟩
  · rw [peek?, peek?, hc, hd]; rfl
  · rw [peek?, peek?, hc, hd]; rfl

/-- A token other than `;` is inside the member. -/
theorem of_peek (h : Inside rest rest' c d) {t : Token} (ht : c.peek? = some t) (hsemi : t.isPunctuation ";" = false) :
    ∃ text, Contained (t :: text) ∧ c.ahead = t :: (text ++ mark ";" :: rest) ∧
      d.ahead = t :: (text ++ mark ";" :: rest') ∧ Inside rest rest' c.next d.next := by
  rcases h.cases with ⟨hc, -⟩ | ⟨u, text, htext, hc, hd, hnext⟩
  · rw [peek?, hc] at ht
    cases ht
    cases hsemi
  · rw [peek?, hc] at ht
    cases ht
    exact ⟨text, htext, hc, hd, hnext⟩

end Inside

private theorem rel_of_eq {α : Type} {r : α → α → Prop} (hr : ∀ {a : α}, r a a) {o p : Option α} (h : o = p) :
    Option.Rel r o p := by
  cases h
  cases o with
  | none => exact .none
  | some a => exact .some hr

theorem isOpener_of_isPunctuation {t : Token} (h : t.isPunctuation "[") : t.isOpener := by
  obtain ⟨hkind, htext⟩ := eq_of_isPunctuation h
  simp [Token.isOpener, hkind, htext]

/-- An array rank that begins in a text that closes its brackets ends in the text. -/
theorem exists_closer {t : Token} {text : List Token} (h : ∃ closers, unmatched (t :: text) = some closers)
    (ht : t.isPunctuation "[") : ∃ u ∈ t :: text, u.isPunctuation "]" := by
  obtain ⟨closers, hclosers⟩ := h
  have hinner := unmatched_of_opener hclosers (isOpener_of_isPunctuation ht)
  rw [(eq_of_isPunctuation ht).2] at hinner
  obtain ⟨u, hu, hcloser⟩ := exists_of_mem_unmatched hinner (List.mem_cons_self ..)
  exact ⟨u, List.mem_cons_of_mem _ hu, hcloser⟩

/-- Readers of types, names, headers and patterns do not get past the `;`. -/
theorem lockstep_inside (rest rest' : List Token) : Lockstep Eq (Inside rest rest') where
  alike h := h ▸ .rfl
  peek? h := rel_of_eq rfl h.peek_eq
  second? {c d} h hsemi := by
    rcases h.cases with ⟨hc, -⟩ | ⟨t, text, -, -, -, hnext⟩
    · rw [sees, peek?, hc] at hsemi
      cases hsemi
    · exact rel_of_eq .rfl hnext.peek_eq
  next h ht hwall := (h.of_peek ht (not_isPunctuation_of_not_isWall hwall)).choose_spec.2.2.2
  skipGroup {c d} h hopens := by
    obtain ⟨t, ht, hopen⟩ := (Option.any_eq_true _ _).mp hopens
    obtain ⟨text, htext, hc, hd, -⟩ := h.of_peek ht (not_semicolon_of_isOpener hopen)
    obtain ⟨behind, hsuffix, hbehind⟩ := skipGroup_append htext.closed.choose_spec hopen
    refine .of_suffix htext.tail hsuffix ?_ ?_
    · exact (congrArg (fun ahead => (skipGroup ⟨c.before, ahead⟩).ahead) hc).trans (hbehind _ _)
    · exact (congrArg (fun ahead => (skipGroup ⟨d.before, ahead⟩).ahead) hd).trans (hbehind _ _)
  attributeSection {c d} h hsees := by
    obtain ⟨t, ht, hmark⟩ := exists_of_sees hsees
    obtain ⟨text, htext, hc, hd, -⟩ := h.of_peek ht (isPunctuation_of_ne hmark (by decide))
    have hopen := isOpener_of_isPunctuation hmark
    obtain ⟨found, behind, hsuffix, hbehind⟩ := attributeTokens_append false
      (unmatched_of_opener htext.closed.choose_spec hopen) Nat.one_pos (Nat.succ_le_succ (Nat.zero_le _))
      htext.tail.noBrace
    have hsection {before after : List Token} :
        attributeTokens 0 false before (t :: (text ++ after)) =
          attributeTokens 1 false (t :: before) (text ++ after) := by
      rw [attributeTokens, hmark, Bool.true_or, if_pos rfl]
    rw [Cursor.attributeSection, Cursor.attributeSection, hc, hd, hsection, hsection]
    refine ⟨(hbehind _ _).1.trans (hbehind _ _).1.symm, ?_⟩
    exact .of_suffix htext.tail hsuffix (hbehind _ _).2 (hbehind _ _).2
  skipRank {c d} h hsees _ := by
    obtain ⟨t, ht, hmark⟩ := exists_of_sees hsees
    obtain ⟨text, htext, hc, hd, -⟩ := h.of_peek ht (isPunctuation_of_ne hmark (by decide))
    have hend : ∃ u ∈ t :: text, u.isPunctuation "]" := exists_closer htext.closed hmark
    obtain ⟨behind, hsuffix, hbehind⟩ := skipPast_append hend
    refine .of_suffix htext hsuffix ?_ ?_
    · exact (congrArg (fun ahead => (skipPast "]" ⟨c.before, ahead⟩).ahead) hc).trans (hbehind _ _)
    · exact (congrArg (fun ahead => (skipPast "]" ⟨d.before, ahead⟩).ahead) hd).trans (hbehind _ _)

end Cursor

end CSharpStyle
