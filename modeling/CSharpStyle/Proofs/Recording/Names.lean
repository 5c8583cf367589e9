import CSharpStyle.Proofs.Recording.Step

/-!
# Names are recorded once

What is recorded in an outline is put down to tokens: a declaration to its name, a directive to its first token. A
reading holds the names that it has read and not recorded yet, and recording a name spends it, so that no token is
recorded twice.

* `Outline.Names`: the tokens that declarations and directives are put down to.
* `Reading.Holds held s`: these and the tokens in `held` were consumed, each at a place of its own.
* `Stage.Step.holds`: every step keeps this.
-/

namespace CSharpStyle

/-- The declarations of the outline are those of the names in `named`, and its directives begin with `firsts`. -/
structure Outline.Names (o : Outline) (named firsts : List Token) : Prop where
  declarations : o.declarations.toList.map (fun d => (d.name, d.position)) =
    named.map fun t => (t.identifierName, t.start)
  usings : o.usings.toList.map (·.position) = firsts.map (·.start)

namespace Outline.Names

variable {o : Outline} {named firsts : List Token}

theorem declare (h : o.Names named firsts) (scope : ScopeId) {d : Declaration} {t : Token}
    (hname : d.name = t.identifierName) (hposition : d.position = t.start) :
    (o.declare scope d).Names (named ++ [t]) firsts where
  declarations := by
    simp only [Outline.declare, Array.toList_push, List.map_append, h.declarations, List.map_cons, List.map_nil, hname,
      hposition]
  usings := h.usings

theorem addUsing (h : o.Names named firsts) {u : UsingDirective} {t : Token} (hposition : u.position = t.start) :
    (o.addUsing u).Names named (firsts ++ [t]) where
  declarations := h.declarations
  usings := by
    simp only [Outline.addUsing, Array.toList_push, List.map_append, h.usings, List.map_cons, List.map_nil, hposition]

end Outline.Names

namespace Reading

/-- The tokens in `held` and those that were recorded were consumed, each at a place of its own. -/
def Holds (held : List Token) (s : Reading) : Prop :=
  ∃ named firsts, s.outline.Names named firsts ∧ s.cursor.Covers (held ++ (named ++ firsts))

namespace Holds

variable {held : List Token} {s s' : Reading} {t : Token}

theorem ofTokens (tokens : List Token) : (Reading.ofTokens tokens).Holds [] := ⟨[], [], ⟨rfl, rfl⟩, List.nil_subperm⟩

theorem declare {d : Declaration} (h : s.Holds (t :: held)) (scope : ScopeId) (hname : d.name = t.identifierName)
    (hposition : d.position = t.start) : (s.declare scope d).Holds held := by
  obtain ⟨named, firsts, hnames, hcovers⟩ := h
  refine ⟨named ++ [t], firsts, hnames.declare scope hname hposition, hcovers.perm ?_⟩
  have hspent : held ++ (named ++ [t] ++ firsts) = (held ++ named) ++ t :: firsts := by
    simp only [List.append_assoc, List.singleton_append]
  have hheld : t :: held ++ (named ++ firsts) = t :: ((held ++ named) ++ firsts) := by
    simp only [List.cons_append, List.append_assoc]
  rw [hspent, hheld]
  exact List.perm_middle

end Holds

end Reading

/-- Every step keeps that the names that are held or recorded were consumed. -/
theorem Stage.Step.holds {σ τ : Stage} (h : σ.Step τ) (hσ : σ.reading.Holds σ.held) : τ.reading.Holds τ.held := by
  cases h with
  | read covers behind declarations usings =>
    obtain ⟨named, firsts, hnames, hcovers⟩ := hσ
    exact ⟨named, firsts, ⟨declarations ▸ hnames.declarations, usings ▸ hnames.usings⟩, covers hcovers⟩
  | declare scope name position => exact hσ.declare scope name position
  | addUsing position =>
    obtain ⟨named, firsts, hnames, hcovers⟩ := hσ
    refine ⟨named, firsts ++ [_], hnames.addUsing position, hcovers.perm ?_⟩
    rw [← List.append_assoc, ← List.append_assoc, ← List.append_assoc]
    exact List.perm_append_singleton _ _
  | openGroup =>
    obtain ⟨named, firsts, hnames, hcovers⟩ := hσ
    exact ⟨named, firsts, ⟨hnames.declarations, hnames.usings⟩, hcovers⟩
  | closeGroup => exact hσ
  | record next => exact hσ.declare _ next.name next.position

end CSharpStyle
