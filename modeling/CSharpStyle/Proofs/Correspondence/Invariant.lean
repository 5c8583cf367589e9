import CSharpStyle.Proofs.Correspondence.CompilationUnit

/-!
# Invariants of reading

A reading that corresponds to itself satisfies an invariant, so the theorems about corresponding readings give the
invariants of a single one.

* `Cursor.Over tokens c`: the tokens behind and ahead of `c` are those of the file, and the cursor is nowhere else.
* `Correspondence.invariant`: reading stays over the tokens of the file, no loop stalls, and a property of the
  defects that further ones keep is kept.
* `Statement.read_eq`, `TypeDeclaration.read_eq`, `NamespaceBody.read_eq`: the guards of the recursions never fire.
-/

namespace CSharpStyle

namespace Cursor

/-- The cursor stands between two tokens of the file, or in front or behind all of them. -/
def Over (tokens : List Token) (c : Cursor) : Prop := c.before.reverse ++ c.ahead = tokens

namespace Over

variable {tokens : List Token} {c d : Cursor}

theorem next (h : c.Over tokens) (hne : c.ahead ≠ []) : c.next.Over tokens := by
  obtain ⟨before, _ | ⟨t, ahead⟩⟩ := c
  · exact absurd rfl hne
  · simpa [Over, Cursor.next] using h

theorem length_before (h : c.Over tokens) : c.before.length = tokens.length - c.size := by
  rw [← h, List.length_append, List.length_reverse, Cursor.size]
  omega

theorem size_le (h : c.Over tokens) : c.size ≤ tokens.length := by
  rw [← h, List.length_append, Cursor.size]
  omega

/-- A cursor over the tokens is known by the number of tokens ahead. -/
theorem eq_of_size (h : c.Over tokens) (h' : d.Over tokens) (hsize : c.size = d.size) : c = d := by
  obtain ⟨hbefore, hahead⟩ := List.append_inj' ((show _ = _ from h).trans (show _ = _ from h').symm) hsize
  obtain ⟨before, ahead⟩ := c
  obtain ⟨before', ahead'⟩ := d
  cases hahead
  cases List.reverse_injective hbefore
  rfl

theorem ahead_eq_drop (h : c.Over tokens) : c.ahead = tokens.drop (tokens.length - c.size) := by
  rw [← h.length_before, ← h, ← List.length_reverse, List.drop_left]

end Over

end Cursor

theorem Declaration.Alike.declare_eq {d e : Declaration} (h : d.Alike Eq Eq e) (o : Outline) (scope : ScopeId) :
    o.declare scope d = o.declare scope e := by
  have hgroup : d.group = e.group := by
    rcases rel_cases h.group with ⟨hd, he⟩ | ⟨g, g', hd, he, hg⟩
    · rw [hd, he]
    · rw [hd, he]
      cases g
      cases hg.group
      cases hg.index
      rfl
  rw [Outline.declare, Outline.declare, h.name, h.role, h.kind, h.accessibility, h.localDetail, h.position, hgroup]

namespace Correspondence

/-- Each reading over the tokens corresponds to itself, as long as its defects satisfy `E`. -/
def invariant (tokens : List Token) (E : Array StructureError → Prop)
    (hpush : ∀ {errors : Array StructureError} (e : StructureError), E errors → E (errors.push e)) :
    Correspondence where
  tokens := Eq
  positions := Eq
  groups := Eq
  cursors c d := c = d ∧ c.Over tokens
  outlines := Eq
  scopes _ _ := Eq
  errors e f := e = f ∧ E e
  alike h := h ▸ .rfl
  start h := h ▸ rfl
  ahead h := h.1 ▸ List.forall₂_same.mpr fun _ _ => rfl
  next h hne := ⟨h.1 ▸ rfl, h.2.next hne⟩
  eq_of_size h h' hsize := by
    have heq := h.2.eq_of_size h'.2 hsize
    exact ⟨heq, h.1.symm.trans (heq.trans h'.1)⟩
  behindArrow h _ := by rw [Reading.isBehindArrow, Reading.isBehindArrow, h.1]
  position h := by rw [Reading.position, Reading.position, h.1]
  addScope kind name typeKind _ ho hij := by
    cases ho
    cases hij
    exact ⟨rfl, rfl, id⟩
  declare ho hij hde := by
    cases ho
    cases hij
    exact ⟨hde.declare_eq _ _, id⟩
  newGroup ho := by
    cases ho
    exact ⟨rfl, rfl, id⟩
  addUsing ho huv := by
    cases ho
    have heq := huv.rest
    rw [huv.position] at heq
    exact ⟨heq ▸ rfl, id⟩
  scopeName ho hij := by rw [ho, hij]
  typeKindOf ho hij := by rw [ho, hij]
  report defect h hpq := ⟨by rw [h.1, hpq], hpush _ h.2⟩

end Correspondence

namespace Reading

/-- The reading is over the tokens, was never stalled, and its defects satisfy `E`. -/
structure Sound (tokens : List Token) (E : Array StructureError → Prop) (s : Reading) : Prop where
  inside : s.cursor.Over tokens
  moving : s.stalled = false
  errors : E s.errors

variable {tokens : List Token} {E : Array StructureError → Prop}
  (hpush : ∀ {errors : Array StructureError} (e : StructureError), E errors → E (errors.push e)) {s t : Reading}

theorem Sound.related (h : s.Sound tokens E) : (Correspondence.invariant tokens E hpush).Related s s :=
  ⟨⟨rfl, h.inside⟩, rfl, ⟨rfl, h.errors⟩, h.moving, h.moving⟩

variable {hpush}

theorem sound_of_related (h : (Correspondence.invariant tokens E hpush).Related s t) : s.Sound tokens E :=
  ⟨h.cursor.2, h.stalled.1, h.errors.2⟩

theorem eq_of_related (h : (Correspondence.invariant tokens E hpush).Related s t) : s = t := by
  obtain ⟨cursor, outline, errors, stalled⟩ := s
  obtain ⟨cursor', outline', errors', stalled'⟩ := t
  obtain ⟨⟨hcursor, -⟩, houtline, ⟨herrors, -⟩, hstalled, hstalled'⟩ := h
  cases hcursor
  cases houtline
  cases herrors
  cases hstalled
  cases hstalled'
  rfl

/-- A round that goes on keeps the invariant and consumes a token. -/
theorem sound_of_again {ρ : Type} {Q : ρ → ρ → Prop} {round : Reading → Round Reading ρ}
    (hround : Round.Rel ((Correspondence.invariant tokens E hpush).Advances s s) Q (round s) (round s))
    (h : round s = .again t) : t.Sound tokens E ∧ t.size < s.size := by
  rw [h] at hround
  cases hround with
  | again hagain => exact ⟨sound_of_related hagain.leads.related, hagain.size_lt⟩

/-- Nothing but that a reading is not stalled. -/
abbrev Moving (s : Reading) : Prop := s.Sound (s.cursor.before.reverse ++ s.cursor.ahead) fun _ => True

theorem moving_of_not_stalled (h : s.stalled = false) : s.Moving := ⟨rfl, h, trivial⟩

end Reading

/-! ### The recursions without their guards -/

/-- A statement is read with the reader of statements itself. -/
theorem Statement.read_eq {s : Reading} (h : s.stalled = false) (scope : ScopeId) :
    Statement.read scope s = Reading.statementAt Statement.read scope s := by
  have hs := (Reading.moving_of_not_stalled h).related fun _ => id
  rw [Statement.read.eq_def scope s]
  refine Reading.eq_of_related (Correspondence.statementAt (n := s.size) ?_ hs rfl (Nat.le_refl _)).related
  intro t t' i j ht hij hsize
  simp only [if_pos hsize]
  exact Correspondence.statement ht hij

theorem TypeDeclaration.read_eq {s : Reading} (h : s.stalled = false) (scope : ScopeId) (header : Header) :
    TypeDeclaration.read scope header s = Reading.typeDeclarationAt TypeDeclaration.read scope header s := by
  have hs := (Reading.moving_of_not_stalled h).related fun _ => id
  rw [TypeDeclaration.read.eq_def scope header s]
  refine Reading.eq_of_related (Correspondence.typeDeclarationAt (n := s.size) ?_ hs rfl (Nat.le_refl _) _).related
  intro t t' i j header ht hij hsize
  simp only [if_pos hsize]
  exact Correspondence.typeDeclaration ht hij header

theorem NamespaceBody.alike_self (body : NamespaceBody) : body.Alike Eq Eq body := by
  refine ⟨rfl, rfl, ?_⟩
  cases body.opening with
  | none => exact .none
  | some p => exact .some rfl

theorem NamespaceBody.read_eq {s : Reading} (h : s.stalled = false) (body : NamespaceBody) :
    body.read s = rounds Reading.size (Reading.namespaceRound NamespaceBody.read body) Reading.stall s := by
  have hs := (Reading.moving_of_not_stalled h).related fun _ => id
  rw [NamespaceBody.read.eq_def body s]
  refine Reading.eq_of_related (Correspondence.rounds_leads hs fun {s' t'} h' => ?_).related
  refine (Correspondence.namespaceRound (n := s.size) ?_ h'.related body.alike_self h'.size_le).imp id
    fun hdone => hdone.1
  intro t t' a b ht hab hsize
  simp only [if_pos hsize]
  exact Correspondence.namespaceBody ht hab

end CSharpStyle
