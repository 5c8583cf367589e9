import CSharpStyle.Proofs.Correspondence.Invariant

/-!
# Shifted readings

Two readings that go on from different places of two files, in front of alike tokens, record the same things behind
these places. The scopes opened there have other numbers, since other scopes were opened in front of them.

* `Declaration.entry`: what is recorded of a declaration apart from its place.
* `Cursor.Shifted`: both cursors have moved over alike tokens.
* `Outline.Shifted`: the outlines agree behind the scopes and entries that they had at first.
* `Correspondence.shifted`: shifted readings correspond.
* `CompilationUnit.entries_of_alike`: what a file records depends on the kinds and texts of its tokens only.
-/

namespace CSharpStyle

/-- A declaration without its place. -/
structure Entry where
  name : String
  role : Role
  accessibility : Accessibility
  kind : DeclarationKind
  deriving DecidableEq, Repr

def Declaration.entry (d : Declaration) : Entry := ⟨d.name, d.role, d.accessibility, d.kind⟩

theorem Declaration.Alike.entry {positions : Position → Position → Prop} {groups : Nat → Nat → Prop}
    {d e : Declaration} (h : d.Alike positions groups e) : d.entry = e.entry := by
  rw [Declaration.entry, Declaration.entry, h.name, h.role, h.accessibility, h.kind]

namespace Outline

/-- The declarations of a file in their order. -/
def entries (o : Outline) : List Entry := o.declarations.toList.map (·.entry)

/-- The name of a scope and the kind of the type whose body it is. -/
def heading? (o : Outline) (id : ScopeId) : Option (Option String × Option TypeKind) :=
  o.scopes[id]?.map fun scope => (scope.name, scope.typeKind)

theorem scopeName_eq (o : Outline) (id : ScopeId) : o.scopeName id = (o.heading? id).bind (·.1) := by
  rw [scopeName, heading?]
  cases o.scopes[id]? <;> rfl

theorem typeKindOf_eq (o : Outline) (id : ScopeId) : o.typeKindOf id = (o.heading? id).bind (·.2) := by
  rw [typeKindOf, heading?]
  cases o.scopes[id]? <;> rfl

@[simp] theorem size_addScope (o : Outline) (kind : ScopeKind) (name : Option String) (typeKind : Option TypeKind)
    (parent : ScopeId) : (o.addScope kind name typeKind parent).2.scopes.size = o.scopes.size + 1 := by
  simp [addScope]

@[simp] theorem size_declare (o : Outline) (scope : ScopeId) (d : Declaration) :
    (o.declare scope d).scopes.size = o.scopes.size := by
  simp [declare]

theorem heading_eq_none {o : Outline} {id : ScopeId} (h : o.scopes.size ≤ id) : o.heading? id = none := by
  rw [heading?, Array.getElem?_eq_none h]
  rfl

theorem heading_addScope (o : Outline) (kind : ScopeKind) (name : Option String) (typeKind : Option TypeKind)
    (parent id : ScopeId) :
    (o.addScope kind name typeKind parent).2.heading? id =
      if id = o.scopes.size then some (name, typeKind) else o.heading? id := by
  simp only [heading?, addScope, Array.getElem?_push, Array.size_modify, Array.getElem?_modify]
  split
  · rfl
  · split
    · cases o.scopes[id]? <;> rfl
    · rfl

@[simp] theorem heading_declare (o : Outline) (scope : ScopeId) (d : Declaration) (id : ScopeId) :
    (o.declare scope d).heading? id = o.heading? id := by
  simp only [heading?, declare, Array.getElem?_modify]
  split
  · cases o.scopes[id]? <;> rfl
  · rfl

@[simp] theorem entries_declare (o : Outline) (scope : ScopeId) (d : Declaration) :
    (o.declare scope d).entries = o.entries ++ [d.entry] := by
  simp [entries, declare, Declaration.entry]

/-- The outlines have the same scopes below `common`. From there on, the scopes of `p` are those of `o` with numbers
less by `offset`. The entries differ only in `front` and `front'`. -/
structure Shifted (common offset : Nat) (front front' : List Entry) (o p : Outline) : Prop where
  size : o.scopes.size = p.scopes.size + offset
  common_le : common ≤ p.scopes.size
  below {id : ScopeId} : id < common → o.heading? id = p.heading? id
  behind {id : ScopeId} : common ≤ id → o.heading? (id + offset) = p.heading? id
  entries : ∃ added, o.entries = front ++ added ∧ p.entries = front' ++ added

namespace Shifted

variable {common offset : Nat} {front front' : List Entry} {o p : Outline}

/-- The number of a scope in the two outlines. -/
def Scopes (common offset : Nat) (i j : ScopeId) : Prop := i = j ∧ j < common ∨ i = j + offset ∧ common ≤ j

theorem heading (h : Shifted common offset front front' o p) {i j : ScopeId} (hij : Scopes common offset i j) :
    o.heading? i = p.heading? j := by
  rcases hij with ⟨rfl, hlt⟩ | ⟨rfl, hle⟩
  · exact h.below hlt
  · exact h.behind hle

theorem addScope (h : Shifted common offset front front' o p) (kind : ScopeKind) (name : Option String)
    (typeKind : Option TypeKind) (i j : ScopeId) :
    Shifted common offset front front' (o.addScope kind name typeKind i).2 (p.addScope kind name typeKind j).2 where
  size := by rw [size_addScope, size_addScope, h.size]; omega
  common_le := by rw [size_addScope]; have := h.common_le; omega
  below {id} hlt := by
    have hp : id < p.scopes.size := Nat.lt_of_lt_of_le hlt h.common_le
    have ho : id < o.scopes.size := h.size ▸ Nat.lt_add_right offset hp
    rw [heading_addScope, heading_addScope, if_neg (Nat.ne_of_lt ho), if_neg (Nat.ne_of_lt hp), h.below hlt]
  behind {id} hle := by
    rw [heading_addScope, heading_addScope, h.behind hle, h.size]
    simp only [Nat.add_right_cancel_iff]
  entries := h.entries

theorem declare (h : Shifted common offset front front' o p) (i j : ScopeId) {d e : Declaration}
    (hde : d.entry = e.entry) : Shifted common offset front front' (o.declare i d) (p.declare j e) where
  size := by rw [size_declare, size_declare, h.size]
  common_le := by rw [size_declare]; exact h.common_le
  below hlt := by rw [heading_declare, heading_declare, h.below hlt]
  behind hle := by rw [heading_declare, heading_declare, h.behind hle]
  entries := by
    obtain ⟨added, ho, hp⟩ := h.entries
    refine ⟨added ++ [e.entry], ?_, ?_⟩
    · rw [entries_declare, ho, hde, List.append_assoc]
    · rw [entries_declare, hp, List.append_assoc]

end Shifted

/-- Outlines with the same scopes and entries are shifted by nothing. -/
theorem shifted_of_eq {o p : Outline} (hsize : o.scopes.size = p.scopes.size)
    (hheading : ∀ {id : ScopeId}, o.heading? id = p.heading? id) (hentries : o.entries = p.entries) :
    Shifted 0 0 [] [] o p where
  size := hsize
  common_le := Nat.zero_le _
  below _ := hheading
  behind _ := hheading
  entries := ⟨p.entries, hentries, rfl⟩

end Outline

namespace Cursor

/-- The cursors have moved from `start` and `start'` over alike tokens, and alike tokens are ahead. -/
structure Shifted (start start' c d : Cursor) : Prop where
  alike : List.Forall₂ Token.Alike c.ahead d.ahead
  moved : ∃ passed passed', List.Forall₂ Token.Alike passed passed' ∧ c.before = passed ++ start.before ∧
    passed.reverse ++ c.ahead = start.ahead ∧ d.before = passed' ++ start'.before ∧
    passed'.reverse ++ d.ahead = start'.ahead

namespace Shifted

variable {start start' c d c' d' : Cursor}

theorem refl (h : List.Forall₂ Token.Alike start.ahead start'.ahead) : Shifted start start' start start' :=
  ⟨h, [], [], .nil, rfl, rfl, rfl, rfl⟩

theorem next (h : Shifted start start' c d) (hne : c.ahead ≠ []) : Shifted start start' c.next d.next := by
  obtain ⟨before, _ | ⟨t, ahead⟩⟩ := c
  · exact absurd rfl hne
  obtain ⟨before', ahead'⟩ := d
  obtain ⟨halike, passed, passed', hpassed, hbefore, hahead, hbefore', hahead'⟩ := h
  cases halike with
  | cons htu hrest =>
    rename_i u rest
    refine ⟨hrest, t :: passed, u :: passed', .cons htu hpassed, congrArg _ hbefore, ?_, congrArg _ hbefore', ?_⟩
    · simpa [Cursor.next] using hahead
    · simpa [Cursor.next] using hahead'

theorem eq_of_size (h : Shifted start start' c d) (h' : Shifted start start' c' d') (hsize : c.size = c'.size) :
    c = c' ∧ d = d' := by
  obtain ⟨halike, passed, passed', hpassed, hbefore, hahead, hbefore', hahead'⟩ := h
  obtain ⟨halike₂, passed₂, passed₂', hpassed₂, hbefore₂, hahead₂, hbefore₂', hahead₂'⟩ := h'
  have hsize' : d.size = d'.size := by
    rw [Cursor.size, ← halike.length_eq, Cursor.size, ← halike₂.length_eq]
    exact hsize
  have hc := List.append_inj' (hahead.trans hahead₂.symm) hsize
  have hd := List.append_inj' (hahead'.trans hahead₂'.symm) hsize'
  obtain ⟨before, ahead⟩ := c
  obtain ⟨before', ahead'⟩ := c'
  obtain ⟨dbefore, dahead⟩ := d
  obtain ⟨dbefore', dahead'⟩ := d'
  dsimp only at *
  rw [hbefore, hbefore₂, hbefore', hbefore₂', hc.2, hd.2, List.reverse_injective hc.1, List.reverse_injective hd.1]
  exact ⟨rfl, rfl⟩

/-- What stands right in front of the cursors is alike if that is so at their starts. -/
theorem behind_any (h : Shifted start start' c d) {p : Token → Bool}
    (hp : ∀ {t u : Token}, t.Alike u → p t = p u)
    (hstart : start.before.head?.any p = start'.before.head?.any p) :
    c.before.head?.any p = d.before.head?.any p := by
  obtain ⟨-, passed, passed', hpassed, hbefore, -, hbefore', -⟩ := h
  rw [hbefore, hbefore']
  cases hpassed with
  | nil => exact hstart
  | cons htu _ => exact hp htu

end Shifted

end Cursor

namespace Correspondence

/-- Readings that go on from `start` and `start'`, where alike tokens are ahead, in outlines that are shifted. -/
def shifted (start start' : Cursor)
    (harrow : start.ahead ≠ [] →
      start.before.head?.any (·.isPunctuation "=>") = start'.before.head?.any (·.isPunctuation "=>"))
    (common offset : Nat) (front front' : List Entry) {E : Array StructureError → Array StructureError → Prop}
    (hpush : ∀ {errors errors' : Array StructureError} (defect : Defect) (p q : Position),
      E errors errors' → E (errors.push ⟨defect, p⟩) (errors'.push ⟨defect, q⟩)) : Correspondence where
  tokens := Token.Alike
  positions _ _ := True
  groups _ _ := True
  cursors := Cursor.Shifted start start'
  outlines := Outline.Shifted common offset front front'
  scopes _ _ := Outline.Shifted.Scopes common offset
  errors := E
  alike h := h
  start _ := trivial
  ahead h := h.alike
  next h hne := h.next hne
  eq_of_size h h' hsize := h.eq_of_size h' hsize
  behindArrow {s t} h hne := by
    refine h.behind_any (fun htu => htu.isPunctuation "=>") (harrow fun hnil => hne ?_)
    obtain ⟨-, passed, -, -, -, hahead, -⟩ := h
    exact (List.append_eq_nil_iff.mp (hahead.trans hnil)).2
  position _ := trivial
  addScope kind name typeKind _ h _ :=
    ⟨h.addScope kind name typeKind _ _, .inr ⟨h.size, h.common_le⟩, id⟩
  declare h _ hde := ⟨h.declare _ _ hde.entry, id⟩
  newGroup h := ⟨trivial, ⟨h.size, h.common_le, h.below, h.behind, h.entries⟩, id⟩
  addUsing h _ := ⟨⟨h.size, h.common_le, h.below, h.behind, h.entries⟩, id⟩
  scopeName h hij := by rw [Outline.scopeName_eq, Outline.scopeName_eq, h.heading hij]
  typeKindOf h hij := by rw [Outline.typeKindOf_eq, Outline.typeKindOf_eq, h.heading hij]
  report defect h _ := hpush defect _ _ h

end Correspondence

namespace CompilationUnit

def entries (unit : CompilationUnit) : List Entry := unit.outline.entries

/-- Files with alike tokens record the same declarations and report the same defects. -/
theorem entries_of_alike {tokens tokens' : List Token} (h : List.Forall₂ Token.Alike tokens tokens') :
    (ofTokens tokens).entries = (ofTokens tokens').entries ∧
      (ofTokens tokens).errors.map (·.defect) = (ofTokens tokens').errors.map (·.defect) := by
  let C := Correspondence.shifted ⟨[], tokens⟩ ⟨[], tokens'⟩ (fun _ => rfl) 0 0 [] []
    (E := fun errors errors' => errors.toList.map (·.defect) = errors'.toList.map (·.defect)) (by simp_all)
  have hstart : C.Related (.ofTokens tokens) (.ofTokens tokens') :=
    ⟨.refl h, Outline.shifted_of_eq rfl rfl rfl, rfl, rfl, rfl⟩
  have hbody : NamespaceBody.file.Alike C.positions (C.scopes Outline.empty Outline.empty) NamespaceBody.file :=
    ⟨.inr ⟨rfl, Nat.zero_le _⟩, rfl, .none⟩
  have hend := (Correspondence.namespaceBody hstart hbody).1.related
  obtain ⟨added, hentries, hentries'⟩ := hend.outline.entries
  exact ⟨hentries.trans hentries'.symm, hend.errors⟩

/-- What holds of the kinds of all defects of a file holds in each file with alike tokens. -/
theorem kinds_of_alike {tokens tokens' : List Token} (h : List.Forall₂ Token.Alike tokens tokens')
    {P : DefectKind → Prop} (hkinds : ∀ e ∈ (ofTokens tokens).errors, P e.kind) :
    ∀ e ∈ (ofTokens tokens').errors, P e.kind := by
  intro e he
  have hdefect : e.defect ∈ (ofTokens tokens').errors.map (·.defect) := List.mem_map_of_mem he
  rw [← (entries_of_alike h).2] at hdefect
  obtain ⟨e', he', heq⟩ := List.mem_map.mp hdefect
  have hkind := hkinds e' he'
  rwa [StructureError.kind, heq] at hkind

end CompilationUnit

end CSharpStyle
