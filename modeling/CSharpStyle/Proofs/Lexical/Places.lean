import CSharpStyle.Proofs.Lexical.Tiling
import Mathlib.Data.Prod.Lex

/-!
# Tokens have places of their own

Reports show places as lines and columns. A token takes at least one character, so that the next one is on a later line
or in a later column, and no two tokens of a text are shown at the same place.

* `Position.place`: the line and the column, in the order of the text.
* `Lexer.Emits.ascending`: the items of a lexer ascend in this order, and by their offsets.
* `TokenStream.nodup_places`: the significant tokens have places of their own.
-/

namespace CSharpStyle

namespace Position

/-- The line and the column. Earlier lines come first, and earlier columns of a line. -/
def place (p : Position) : Nat ×ₗ Nat := toLex (p.line, p.column)

theorem place_lt_next (p : Position) (c : Char) : p.place < (p.next c).place := by
  rw [place, place, Prod.Lex.toLex_lt_toLex]
  by_cases hc : c = '\n'
  · left
    rw [next, if_pos hc]
    exact Nat.lt_succ_self p.line
  · right
    rw [next, if_neg hc]
    exact ⟨rfl, Nat.lt_succ_self p.column⟩

theorem offset_lt_next (p : Position) (c : Char) : p.offset < (p.next c).offset := by
  rw [next]
  split <;> exact Nat.lt_add_of_pos_right c.utf8Size_pos

section Measures

variable {α : Type} [Preorder α] {measure : Position → α}

/-- What grows with each character does not fall over a text. -/
theorem le_advance (hnext : ∀ (p : Position) (c : Char), measure p < measure (p.next c)) (p : Position)
    (cs : List Char) : measure p ≤ measure (p.advance cs) := by
  induction cs generalizing p with
  | nil => exact le_rfl
  | cons c cs ih => exact (hnext p c).le.trans (ih (p.next c))

theorem lt_advance (hnext : ∀ (p : Position) (c : Char), measure p < measure (p.next c)) (p : Position)
    {cs : List Char} (h : cs ≠ []) : measure p < measure (p.advance cs) := by
  cases cs with
  | nil => exact absurd rfl h
  | cons c cs => exact (hnext p c).trans_le (le_advance hnext (p.next c) cs)

end Measures

/-- What comes before a position determines it. -/
theorem IsBehind.unique {p q : Position} {before : List Char} (hp : p.IsBehind before) (hq : q.IsBehind before) :
    p = q := by
  have hoffset : p.offset = q.offset := hp.offset_eq.trans hq.offset_eq.symm
  have hline : p.line = q.line := hp.line_eq.trans hq.line_eq.symm
  have hcolumn : p.column = q.column := hp.column_eq.trans hq.column_eq.symm
  cases p
  cases q
  rw [mk.injEq]
  exact ⟨hoffset, hline, hcolumn⟩

end Position

section

variable {α : Type} [Preorder α] {measure : Position → α}

/-- The items that lie ahead of a lexer begin at ascending positions, none of them before the lexer. -/
theorem Lexer.Emits.ascending {lexer : Lexer} {items : List LexicalItem} {text before : List Char}
    (hnext : ∀ (p : Position) (c : Char), measure p < measure (p.next c)) (run : Emits lexer items)
    (h : lexer.Within text before) :
    (∀ item ∈ items, measure lexer.position ≤ measure item.span.start) ∧
      items.Pairwise fun item later => measure item.span.start < measure later.span.start := by
  induction run generalizing before with
  | stop => exact ⟨fun _ hmem => absurd hmem List.not_mem_nil, .nil⟩
  | @item lexer after item items hread _ ih =>
    obtain ⟨taken, hne, -, hspan, hafter⟩ := next?_step h hread
    obtain ⟨hleast, hrest⟩ := ih hafter
    have hstart : item.span.start = lexer.position := congrArg Span.start hspan
    have hlt : measure lexer.position < measure after.position := by
      rw [hafter.isBehind.unique (h.isBehind.advance taken)]
      exact Position.lt_advance hnext lexer.position hne
    constructor
    · intro other hother
      rcases List.mem_cons.mp hother with rfl | hother
      · rw [hstart]
      · exact hlt.le.trans (hleast other hother)
    · refine .cons (fun other hother => ?_) hrest
      rw [hstart]
      exact hlt.trans_le (hleast other hother)

namespace TokenStream

theorem ascending_tokens (hnext : ∀ (p : Position) (c : Char), measure p < measure (p.next c)) (source : String) :
    (ofSource source).significant.Pairwise fun t later => measure t.start < measure later.start := by
  have hitems := ((Lexer.emits_items (.ofSource source)).ascending hnext (Lexer.within_ofSource source)).2
  have hstart {item : LexicalItem} {t : Token} (h : t ∈ item.token?) : t.start = item.span.start := by
    cases item with
    | token u =>
      cases h
      rfl
    | error e => cases h
  refine .filter _ (hitems.filterMap _ fun item later hlt t ht u hu => ?_)
  rw [hstart ht, hstart hu]
  exact hlt

theorem ascending_offsets (source : String) :
    (ofSource source).significant.Pairwise fun t later => t.start.offset < later.start.offset :=
  ascending_tokens Position.offset_lt_next source

theorem ascending_significant (source : String) :
    (ofSource source).significant.Pairwise fun t later => t.start.place < later.start.place :=
  ascending_tokens Position.place_lt_next source

/-- The token in front of another one is known by the position of that one. -/
theorem eq_of_isInfix (source : String) {p q t u : Token} (hp : [p, t] <:+: (ofSource source).significant)
    (hq : [q, u] <:+: (ofSource source).significant) (heq : t.start = u.start) : p = q := by
  have hindex {p t : Token} (hp : [p, t] <:+: (ofSource source).significant) :
      ∃ i, (ofSource source).significant[i]? = some p ∧ (ofSource source).significant[i + 1]? = some t := by
    obtain ⟨i, -, hget⟩ := List.infix_iff_getElem?.mp hp
    exact ⟨i, by simpa using hget 0 (by simp), by simpa [Nat.add_comm] using hget 1 (by simp)⟩
  obtain ⟨i, hi, ht⟩ := hindex hp
  obtain ⟨j, hj, hu⟩ := hindex hq
  obtain ⟨hnext, rfl⟩ := List.getElem?_eq_some_iff.mp ht
  obtain ⟨hnext', rfl⟩ := List.getElem?_eq_some_iff.mp hu
  have hascending := List.pairwise_iff_getElem.mp (ascending_offsets source)
  rcases Nat.lt_trichotomy i j with hlt | rfl | hlt
  · have hoffset := hascending _ _ hnext hnext' (Nat.succ_lt_succ hlt)
    rw [heq] at hoffset
    exact absurd hoffset (Nat.lt_irrefl _)
  · exact Option.some.inj (hi.symm.trans hj)
  · have hoffset := hascending _ _ hnext' hnext (Nat.succ_lt_succ hlt)
    rw [heq] at hoffset
    exact absurd hoffset (Nat.lt_irrefl _)

/-- No two significant tokens are shown at the same place. -/
theorem nodup_places (source : String) : ((ofSource source).significant.map (·.start.place)).Nodup :=
  List.pairwise_map.mpr ((ascending_significant source).imp fun hlt => hlt.ne)

end TokenStream

end

end CSharpStyle
