import CSharpStyle.Proofs.Correspondence.Reading

/-!
# Corresponding blocks and expressions

The readers of blocks and expressions lead, if the readers of the statements inside lead wherever fewer tokens are
ahead. That is all they need: a statement is only read behind the brace that opens its block, or behind the keyword
that controls it.
-/

namespace CSharpStyle

namespace Correspondence

open Cursor Reading

variable {C : Correspondence} {n : Nat} {f g : StatementReader} {s t : Reading} {i j : ScopeId}

/-- The readers of statements lead wherever fewer than `n` tokens are ahead. -/
def Statements (C : Correspondence) (n : Nat) (f g : StatementReader) : Prop :=
  ∀ {s t : Reading} {i j : ScopeId}, C.Related s t → C.scopes s.outline t.outline i j → s.size < n →
    C.Leads s t (f i s) (g j t)

theorem blockRound (hread : C.Statements n f g) (h : C.Related s t) (hij : C.scopes s.outline t.outline i j)
    (hn : s.size < n) {p q : Position} (hpq : C.positions p q) :
    Round.Rel (C.Advances s t) (C.Leads s t) (Reading.blockRound f p i s) (Reading.blockRound g q j t) := by
  rw [Reading.blockRound, Reading.blockRound]
  rcases h.peek_cases with ⟨hs, ht⟩ | ⟨a, b, hs, ht, hab⟩
  · rw [hs, ht]; exact .done (h.reportAt hpq _)
  · have hne := ahead_ne_nil_of_peek? hs
    simp only [hs, ht, ← (C.alike hab).isPunctuation]
    split
    · exact .done (h.next hne).leads
    · exact .again (h.progress hne (hread h hij hn))

theorem block (hread : C.Statements n f g) (h : C.Related s t) (hij : C.scopes s.outline t.outline i j)
    (hn : s.size ≤ n) (hne : s.cursor.ahead ≠ []) :
    C.Advances s t (Reading.block f i s) (Reading.block g j t) := by
  have hnext := h.next hne
  obtain ⟨hopen, hscope⟩ := hnext.leads.related.openScope (hnext.leads.scopes hij) .block none (by decide)
  have hbehind := hnext.trans hopen
  refine hbehind.trans (rounds_leads hopen.related fun h' => ?_)
  refine blockRound hread h'.related (h'.scopes hscope) ?_ (C.position h.cursor)
  exact Nat.lt_of_le_of_lt h'.size_le (Nat.lt_of_lt_of_le hbehind.size_lt hn)

theorem expressionRound (hread : C.Statements n f g) (h : C.Related s t) (hij : C.scopes s.outline t.outline i j)
    (hn : s.size ≤ n) (stops pending : List String) :
    Round.Rel (fun a b => a.1 = b.1 ∧ C.Advances s t a.2 b.2) (C.Leads s t)
      (Reading.expressionRound f i stops (pending, s)) (Reading.expressionRound g j stops (pending, t)) := by
  simp only [Reading.expressionRound]
  rcases h.peek_cases with ⟨hs, ht⟩ | ⟨a, b, hs, ht, hab⟩
  · rw [hs, ht]; exact .done (.refl h)
  · have halike := C.alike hab
    have hne := ahead_ne_nil_of_peek? hs
    have hnext := h.next hne
    simp only [hs, ht, ← halike.isPunctuation, ← halike.isOpener, ← halike.isCloser, ← halike.text, ← halike.kind,
      ← C.behindArrow h.cursor hne]
    split
    · exact .again ⟨rfl, block hread h hij hn hne⟩
    · split
      · exact .again ⟨rfl, hnext⟩
      · split
        · cases pending with
          | nil => exact .done (.refl h)
          | cons closer outer => exact .again ⟨rfl, hnext⟩
        · split
          · exact .done (.refl h)
          · split
            · exact .done (.refl h)
            · exact .again ⟨rfl, hnext⟩

theorem skipExpression (hread : C.Statements n f g) (h : C.Related s t)
    (hij : C.scopes s.outline t.outline i j) (hn : s.size ≤ n) (stops : List String) :
    C.Leads s t (Reading.skipExpression f i stops s) (Reading.skipExpression g j stops t) := by
  refine rounds_leads_with Prod.snd Prod.snd (fun a b => a.1 = b.1) ?_ rfl (.refl h)
  rintro ⟨pending, s'⟩ ⟨pending', t'⟩ hpending h'
  cases hpending
  exact (expressionRound hread h'.related (h'.scopes hij) (Nat.le_trans h'.size_le hn) stops pending).imp id h'.trans

theorem skipToStatementEnd (hread : C.Statements n f g) (h : C.Related s t)
    (hij : C.scopes s.outline t.outline i j) (hn : s.size ≤ n) :
    C.Leads s t (Reading.skipToStatementEnd f i s) (Reading.skipToStatementEnd g j t) := by
  have hskip := skipExpression hread h hij hn []
  exact hskip.trans (hskip.related.skip ";")

theorem skipValue (hread : C.Statements n f g) (h : C.Related s t)
    (hij : C.scopes s.outline t.outline i j) (hn : s.size ≤ n) :
    C.Leads s t (Reading.skipValue f i s) (Reading.skipValue g j t) := by
  rw [Reading.skipValue, Reading.skipValue]
  rcases h.eat_cases "=" with ⟨hs, ht⟩ | ⟨s', t', hs, ht, h'⟩
  · rw [hs, ht]; exact .refl h
  · rw [hs, ht]
    exact h'.leads.trans
      (skipExpression hread h'.leads.related (h'.leads.scopes hij) (Nat.le_trans h'.leads.size_le hn) [","])

theorem skipParenthesized (hread : C.Statements n f g) (h : C.Related s t)
    (hij : C.scopes s.outline t.outline i j) (hn : s.size ≤ n) :
    C.Leads s t (Reading.skipParenthesized f i s) (Reading.skipParenthesized g j t) := by
  rw [Reading.skipParenthesized, Reading.skipParenthesized]
  rcases h.eat_cases "(" with ⟨hs, ht⟩ | ⟨s', t', hs, ht, h'⟩
  · rw [hs, ht]; exact .refl h
  · rw [hs, ht]
    have hskip := skipExpression hread h'.leads.related (h'.leads.scopes hij) (Nat.le_trans h'.leads.size_le hn) []
    exact h'.leads.trans (hskip.trans (hskip.related.require ")" _))

theorem embedded (hread : C.Statements n f g) (h : C.Related s t) (hij : C.scopes s.outline t.outline i j)
    (hn : s.size < n) : C.Leads s t (Reading.embedded f i s) (Reading.embedded g j t) := by
  rw [Reading.embedded, Reading.embedded]
  rcases h.peek_cases with ⟨hs, ht⟩ | ⟨a, b, hs, ht, hab⟩
  · rw [hs, ht]; exact .refl h
  · simp only [hs, ht, ← (C.alike hab).isPunctuation]
    split
    · exact .refl h
    · exact (h.progress (ahead_ne_nil_of_peek? hs) (hread h hij hn)).leads

end Correspondence

end CSharpStyle
