import CSharpStyle.Proofs.Correspondence.Cursor

/-!
# Corresponding readings

Two readings correspond when they see the same tokens ahead and what they recorded so far is related. Every reader
leads corresponding readings to corresponding ones, whatever the relation is, as long as the steps that readers are
built from keep it. The same theorem therefore compares two files, or a file with a part of it, and, with a reading
compared to itself, gives invariants of reading.

* `Correspondence`: the relations, and what the single steps have to keep.
* `Correspondence.Leads s t s' t'`: corresponding readings `s'` and `t'` are behind `s` and `t`.
* `Correspondence.rounds_leads`: a loop leads where its rounds lead, if every round that goes on consumes a token.
-/

namespace CSharpStyle

/-- The results of two rounds are related. -/
inductive Round.Rel {σ τ ρ ρ' : Type} (again : σ → τ → Prop) (done : ρ → ρ' → Prop) :
    Round σ ρ → Round τ ρ' → Prop
  | again {s : σ} {t : τ} (h : again s t) : Rel again done (.again s) (.again t)
  | done {r : ρ} {r' : ρ'} (h : done r r') : Rel again done (.done r) (.done r')

theorem Round.Rel.imp {σ τ ρ ρ' : Type} {again again' : σ → τ → Prop} {done done' : ρ → ρ' → Prop}
    {r : Round σ ρ} {r' : Round τ ρ'} (h : Round.Rel again done r r')
    (hagain : ∀ {s : σ} {t : τ}, again s t → again' s t) (hdone : ∀ {s : ρ} {t : ρ'}, done s t → done' s t) :
    Round.Rel again' done' r r' := by
  cases h with
  | again h => exact .again (hagain h)
  | done h => exact .done (hdone h)

theorem Round.Rel.and {σ τ ρ ρ' : Type} {again : σ → τ → Prop} {done : ρ → ρ' → Prop} {P : σ → Prop} {P' : τ → Prop}
    {r : Round σ ρ} {r' : Round τ ρ'} (h : Round.Rel again done r r') (hs : ∀ {s : σ}, r = .again s → P s)
    (ht : ∀ {t : τ}, r' = .again t → P' t) : Round.Rel (fun s t => again s t ∧ P s ∧ P' t) done r r' := by
  cases h with
  | again h => exact .again ⟨h, hs rfl, ht rfl⟩
  | done h => exact .done h

/-- Loops with related rounds have related results if no round stalls. -/
theorem rounds_rel {σ τ ρ ρ' : Type} {size : σ → Nat} {size' : τ → Nat} {round : σ → Round σ ρ}
    {round' : τ → Round τ ρ'} {stalled : σ → ρ} {stalled' : τ → ρ'} {R : σ → τ → Prop} {Q : ρ → ρ' → Prop}
    (hround : ∀ {s : σ} {t : τ}, R s t →
      Round.Rel (fun s' t' => R s' t' ∧ size s' < size s ∧ size' t' < size' t) Q (round s) (round' t))
    {s : σ} {t : τ} (h : R s t) : Q (rounds size round stalled s) (rounds size' round' stalled' t) := by
  induction hn : size s using Nat.strongRecOn generalizing s t with
  | ind n ih =>
    have hrel := hround h
    cases hs : round s with
    | done r =>
      cases ht : round' t with
      | done r' =>
        rw [hs, ht] at hrel
        cases hrel with
        | done hresult => rw [rounds_of_done hs, rounds_of_done ht]; exact hresult
      | again t' => rw [hs, ht] at hrel; cases hrel
    | again s' =>
      cases ht : round' t with
      | done r' => rw [hs, ht] at hrel; cases hrel
      | again t' =>
        rw [hs, ht] at hrel
        cases hrel with
        | again hagain =>
          obtain ⟨h', hsize, hsize'⟩ := hagain
          rw [rounds_of_again hs hsize, rounds_of_again ht hsize']
          exact ih (size s') (hn ▸ hsize) h' rfl

/-- The places have the same index in related groups. -/
structure GroupPlace.Alike (groups : Nat → Nat → Prop) (g h : GroupPlace) : Prop where
  group : groups g.group h.group
  index : g.index = h.index

/-- The declarations differ at most in their scopes, places and group numbers, and these are related. -/
structure Declaration.Alike (positions : Position → Position → Prop) (groups : Nat → Nat → Prop)
    (d e : Declaration) : Prop where
  name : d.name = e.name
  role : d.role = e.role
  kind : d.kind = e.kind
  accessibility : d.accessibility = e.accessibility
  localDetail : d.localDetail = e.localDetail
  position : positions d.position e.position
  group : Option.Rel (GroupPlace.Alike groups) d.group e.group

/-- The directives differ at most in their places. -/
structure UsingDirective.Alike (positions : Position → Position → Prop) (u v : UsingDirective) : Prop where
  position : positions u.position v.position
  rest : { v with position := u.position } = u

/-- A way to relate two readings that see the same tokens ahead. -/
structure Correspondence where
  tokens : Token → Token → Prop
  positions : Position → Position → Prop
  groups : Nat → Nat → Prop
  cursors : Cursor → Cursor → Prop
  outlines : Outline → Outline → Prop
  scopes : Outline → Outline → ScopeId → ScopeId → Prop
  errors : Array StructureError → Array StructureError → Prop
  alike {t u : Token} : tokens t u → t.Alike u
  start {t u : Token} : tokens t u → positions t.start u.start
  ahead {c d : Cursor} : cursors c d → List.Forall₂ tokens c.ahead d.ahead
  next {c d : Cursor} : cursors c d → c.ahead ≠ [] → cursors c.next d.next
  /-- A cursor is known by the number of tokens ahead. -/
  eq_of_size {c d c' d' : Cursor} : cursors c d → cursors c' d' → c.size = c'.size → c = c' ∧ d = d'
  behindArrow {s t : Reading} : cursors s.cursor t.cursor → s.cursor.ahead ≠ [] → s.isBehindArrow = t.isBehindArrow
  position {s t : Reading} : cursors s.cursor t.cursor → positions s.position t.position
  /-- Readers open no scope as a whole file. -/
  addScope {o p : Outline} {i j : ScopeId} (kind : ScopeKind) (name : Option String) (typeKind : Option TypeKind) :
    kind ≠ .file → outlines o p → scopes o p i j →
      outlines (o.addScope kind name typeKind i).2 (p.addScope kind name typeKind j).2 ∧
      scopes (o.addScope kind name typeKind i).2 (p.addScope kind name typeKind j).2
        (o.addScope kind name typeKind i).1 (p.addScope kind name typeKind j).1 ∧
      ∀ {k l : ScopeId}, scopes o p k l →
        scopes (o.addScope kind name typeKind i).2 (p.addScope kind name typeKind j).2 k l
  declare {o p : Outline} {i j : ScopeId} {d e : Declaration} :
    outlines o p → scopes o p i j → d.Alike positions groups e →
      outlines (o.declare i d) (p.declare j e) ∧
      ∀ {k l : ScopeId}, scopes o p k l → scopes (o.declare i d) (p.declare j e) k l
  newGroup {o p : Outline} : outlines o p →
    groups o.newGroup.1 p.newGroup.1 ∧ outlines o.newGroup.2 p.newGroup.2 ∧
      ∀ {k l : ScopeId}, scopes o p k l → scopes o.newGroup.2 p.newGroup.2 k l
  addUsing {o p : Outline} {u v : UsingDirective} : outlines o p → u.Alike positions v →
    outlines (o.addUsing u) (p.addUsing v) ∧
      ∀ {k l : ScopeId}, scopes o p k l → scopes (o.addUsing u) (p.addUsing v) k l
  scopeName {o p : Outline} {i j : ScopeId} : outlines o p → scopes o p i j → o.scopeName i = p.scopeName j
  typeKindOf {o p : Outline} {i j : ScopeId} : outlines o p → scopes o p i j → o.typeKindOf i = p.typeKindOf j
  report {e f : Array StructureError} {p q : Position} (defect : Defect) :
    errors e f → positions p q → errors (e.push ⟨defect, p⟩) (f.push ⟨defect, q⟩)

namespace Correspondence

open Cursor

variable (C : Correspondence)

/-! ### Cursors -/

private theorem skipBrackets {depth : Nat} {before ahead before' ahead' : List Token}
    (h : C.cursors ⟨before, ahead⟩ ⟨before', ahead'⟩) :
    C.cursors (Cursor.skipBrackets depth before ahead) (Cursor.skipBrackets depth before' ahead') := by
  induction ahead generalizing depth before before' ahead' with
  | nil =>
    cases C.ahead h
    exact h
  | cons t ahead ih =>
    have hnext := C.next h (by simp)
    cases C.ahead h with
    | cons htu hrest =>
      have halike := C.alike htu
      simp only [Cursor.skipBrackets, ← halike.isOpener, ← halike.isCloser]
      split
      · exact ih hnext
      · split
        · split
          · exact hnext
          · exact ih hnext
        · exact ih hnext

private theorem attributeTokens (depth : Nat) (found : Bool) {before ahead before' ahead' : List Token}
    (h : C.cursors ⟨before, ahead⟩ ⟨before', ahead'⟩) :
    (Cursor.attributeTokens depth found before ahead).1 = (Cursor.attributeTokens depth found before' ahead').1 ∧
      C.cursors (Cursor.attributeTokens depth found before ahead).2
        (Cursor.attributeTokens depth found before' ahead').2 := by
  induction ahead generalizing depth found before before' ahead' with
  | nil =>
    cases C.ahead h
    exact ⟨rfl, h⟩
  | cons t ahead ih =>
    have hnext := C.next h (by simp)
    cases C.ahead h with
    | cons htu hrest =>
      have halike := C.alike htu
      simp only [Cursor.attributeTokens, ← halike.isPunctuation, ← halike.text]
      split
      · exact ih _ _ hnext
      · split
        · split
          · exact ⟨rfl, hnext⟩
          · exact ih _ _ hnext
        · exact ih _ _ hnext

private theorem peek? {c d : Cursor} (h : C.cursors c d) : Option.Rel C.tokens c.peek? d.peek? := by
  obtain ⟨before, ahead⟩ := c
  obtain ⟨before', ahead'⟩ := d
  cases C.ahead h with
  | nil => exact .none
  | cons htu hrest => exact .some htu

private theorem peek_any {c d : Cursor} (h : C.cursors c d) {p : Token → Bool}
    (hp : ∀ {t u : Token}, t.Alike u → p t = p u) : c.peek?.any p = d.peek?.any p := by
  rcases rel_cases (C.peek? h) with ⟨hc, hd⟩ | ⟨t, u, hc, hd, htu⟩
  · rw [hc, hd]
  · rw [hc, hd, Option.any_some, Option.any_some, hp (C.alike htu)]

/-- Tokens of any kind are skipped alike. -/
theorem skipWhile {c d : Cursor} (h : C.cursors c d) {p : Token → Bool}
    (hp : ∀ {t u : Token}, t.Alike u → p t = p u) : C.cursors (c.skipWhile p) (d.skipWhile p) := by
  induction hn : c.size using Nat.strongRecOn generalizing c d with
  | ind n ih =>
    rw [skipWhile_eq p c, skipWhile_eq p d, ← C.peek_any h hp]
    split
    · rename_i hany
      obtain ⟨t, ht, -⟩ := (Option.any_eq_true _ _).mp hany
      have hne := ahead_ne_nil_of_peek? ht
      exact ih c.next.size (hn ▸ size_next_lt hne) (C.next h hne) rfl
    · exact h

theorem skipPast {c d : Cursor} (h : C.cursors c d) (mark : String) :
    C.cursors (c.skipPast mark) (d.skipPast mark) := by
  have hstop : C.cursors (c.skipWhile (!·.isPunctuation mark)) (d.skipWhile (!·.isPunctuation mark)) :=
    C.skipWhile h fun htu => by rw [htu.isPunctuation]
  have hahead := C.ahead hstop
  simp only [Cursor.skipPast]
  cases hc : (c.skipWhile (!·.isPunctuation mark)).ahead with
  | nil =>
    rw [hc] at hahead
    rw [List.forall₂_nil_left_iff.mp hahead]
    exact hstop
  | cons t rest =>
    rw [hc] at hahead
    obtain ⟨u, rest', -, -, hd⟩ := List.forall₂_cons_left_iff.mp hahead
    rw [hd]
    exact C.next hstop (by simp [hc])

private theorem second? {c d : Cursor} (h : C.cursors c d) : Option.Rel Token.Alike c.second? d.second? := by
  obtain ⟨before, ahead⟩ := c
  obtain ⟨before', ahead'⟩ := d
  cases C.ahead h with
  | nil => exact .none
  | cons htu hrest =>
    cases hrest with
    | nil => exact .none
    | cons htu hrest => exact .some (C.alike htu)

/-- Corresponding cursors with at most `n` tokens ahead are in lockstep. -/
theorem lockstep (n : Nat) : Lockstep C.tokens fun c d => C.cursors c d ∧ c.size ≤ n where
  alike := C.alike
  peek? h := C.peek? h.1
  second? h _ := C.second? h.1
  next h ht _ := ⟨C.next h.1 (ahead_ne_nil_of_peek? ht), Nat.le_trans (size_next_le _) h.2⟩
  skipGroup {c d} h hopens := by
    obtain ⟨t, ht, -⟩ := (Option.any_eq_true _ _).mp hopens
    exact ⟨C.skipBrackets h.1, Nat.le_of_lt (Nat.lt_of_lt_of_le (size_skipGroup_lt (ahead_ne_nil_of_peek? ht)) h.2)⟩
  attributeSection {c d} h hsees := by
    obtain ⟨hfound, hbehind⟩ := C.attributeTokens 0 false h.1
    have hlt := size_attributeSection_lt (ahead_ne_nil_of_sees hsees)
    exact ⟨hfound, hbehind, Nat.le_of_lt (Nat.lt_of_lt_of_le hlt h.2)⟩
  skipRank {c d} h hsees _ :=
    ⟨C.skipPast h.1 "]", Nat.le_of_lt (Nat.lt_of_lt_of_le (size_skipPast_lt (ahead_ne_nil_of_sees hsees)) h.2)⟩

theorem size_eq {c d : Cursor} (h : C.cursors c d) : c.size = d.size := (C.ahead h).length_eq

/-! ### Readings -/

/-- The readings correspond, and neither was stalled. -/
structure Related (s t : Reading) : Prop where
  cursor : C.cursors s.cursor t.cursor
  outline : C.outlines s.outline t.outline
  errors : C.errors s.errors t.errors
  stalled : s.stalled = false ∧ t.stalled = false

/-- Corresponding readings `s'` and `t'` are behind `s` and `t`. -/
structure Leads (s t s' t' : Reading) : Prop where
  related : C.Related s' t'
  size_le : s'.size ≤ s.size
  scopes {i j : ScopeId} : C.scopes s.outline t.outline i j → C.scopes s'.outline t'.outline i j

/-- At least one token was consumed on the way. -/
structure Advances (s t s' t' : Reading) : Prop where
  leads : C.Leads s t s' t'
  size_lt : s'.size < s.size

variable {C} {s t s' t' s'' t'' : Reading}

theorem Leads.refl (h : C.Related s t) : C.Leads s t s t := ⟨h, Nat.le_refl _, id⟩

theorem Leads.trans (h : C.Leads s t s' t') (h' : C.Leads s' t' s'' t'') : C.Leads s t s'' t'' :=
  ⟨h'.related, Nat.le_trans h'.size_le h.size_le, fun hij => h'.scopes (h.scopes hij)⟩

theorem Advances.trans (h : C.Advances s t s' t') (h' : C.Leads s' t' s'' t'') : C.Advances s t s'' t'' :=
  ⟨h.leads.trans h', Nat.lt_of_le_of_lt h'.size_le h.size_lt⟩

theorem Leads.advances (h : C.Leads s t s' t') (h' : C.Advances s' t' s'' t'') : C.Advances s t s'' t'' :=
  ⟨h.trans h'.leads, Nat.lt_of_lt_of_le h'.size_lt h.size_le⟩

namespace Related

theorem size_eq (h : C.Related s t) : s.size = t.size := C.size_eq h.cursor

/-- Readers of cursors that keep every lockstep lead. -/
theorem move (h : C.Related s t) {c d : Cursor} (hmove : C.cursors c d ∧ c.size ≤ s.size) :
    C.Leads s t { s with cursor := c } { t with cursor := d } :=
  ⟨⟨hmove.1, h.outline, h.errors, h.stalled⟩, hmove.2, id⟩

theorem within (h : C.Related s t) : C.cursors s.cursor t.cursor ∧ s.cursor.size ≤ s.size :=
  ⟨h.cursor, Nat.le_refl _⟩

theorem peek_cases (h : C.Related s t) :
    (s.peek? = none ∧ t.peek? = none) ∨ ∃ a b, s.peek? = some a ∧ t.peek? = some b ∧ C.tokens a b :=
  (C.lockstep s.size).peek_cases h.within

theorem sees (h : C.Related s t) (mark : String) : s.sees mark = t.sees mark :=
  (C.lockstep s.size).sees h.within mark

theorem seesKeyword (h : C.Related s t) (word : String) : s.seesKeyword word = t.seesKeyword word :=
  (C.lockstep s.size).seesKeyword h.within word

theorem second_any (h : C.Related s t) {p : Token → Bool} (hp : ∀ {t u : Token}, t.Alike u → p t = p u) :
    s.cursor.second?.any p = t.cursor.second?.any p := by
  rcases rel_cases (C.second? h.cursor) with ⟨hc, hd⟩ | ⟨a, b, hc, hd, hab⟩
  · rw [hc, hd]
  · rw [hc, hd, Option.any_some, Option.any_some, hp hab]

theorem seesSecond (h : C.Related s t) (mark : String) : s.cursor.seesSecond mark = t.cursor.seesSecond mark :=
  h.second_any fun hab => hab.isPunctuation mark

theorem next (h : C.Related s t) (hne : s.cursor.ahead ≠ []) : C.Advances s t s.next t.next :=
  ⟨h.move ⟨C.next h.cursor hne, size_next_le _⟩, size_next_lt hne⟩

theorem eat? (h : C.Related s t) (mark : String) : Option.Rel (C.Advances s t) (s.eat? mark) (t.eat? mark) := by
  simp only [Reading.eat?, Cursor.eat?, ← (C.lockstep s.size).sees h.within mark]
  split
  · rename_i hsees
    exact .some (h.next (ahead_ne_nil_of_sees hsees))
  · exact .none

theorem eat_cases (h : C.Related s t) (mark : String) :
    (s.eat? mark = none ∧ t.eat? mark = none) ∨
      ∃ s' t', s.eat? mark = some s' ∧ t.eat? mark = some t' ∧ C.Advances s t s' t' :=
  rel_cases (h.eat? mark)

theorem eatKeyword_cases (h : C.Related s t) (word : String) :
    (s.eatKeyword? word = none ∧ t.eatKeyword? word = none) ∨
      ∃ s' t', s.eatKeyword? word = some s' ∧ t.eatKeyword? word = some t' ∧ C.Advances s t s' t' := by
  simp only [Reading.eatKeyword?, Cursor.eatKeyword?, ← (C.lockstep s.size).seesKeyword h.within word]
  split
  · rename_i hsees
    obtain ⟨a, ha, -⟩ := (Option.any_eq_true _ _).mp hsees
    exact .inr ⟨_, _, rfl, rfl, h.next (ahead_ne_nil_of_peek? ha)⟩
  · exact .inl ⟨rfl, rfl⟩

theorem name_cases (h : C.Related s t) :
    (s.name? = none ∧ t.name? = none) ∨
      ∃ a b s' t', s.name? = some (a, s') ∧ t.name? = some (b, t') ∧ C.tokens a b ∧ C.Advances s t s' t' := by
  rw [Reading.name?, Reading.name?]
  rcases rel_cases ((C.lockstep s.size).name? h.within) with ⟨hc, hd⟩ | ⟨⟨a, c⟩, ⟨b, d⟩, hc, hd, hab, hmove⟩
  · rw [hc, hd]; exact .inl ⟨rfl, rfl⟩
  · rw [hc, hd]; exact .inr ⟨a, b, _, _, rfl, rfl, hab, h.move hmove, size_of_name? hc⟩

theorem type_cases (h : C.Related s t) :
    (s.type? = none ∧ t.type? = none) ∨
      ∃ isVar s' t', s.type? = some (isVar, s') ∧ t.type? = some (isVar, t') ∧ C.Advances s t s' t' := by
  rw [Reading.type?, Reading.type?]
  rcases rel_cases ((C.lockstep s.size).type? h.within) with ⟨hc, hd⟩ | ⟨⟨a, c⟩, ⟨b, d⟩, hc, hd, heq, hmove⟩
  · rw [hc, hd]; exact .inl ⟨rfl, rfl⟩
  · cases heq
    rw [hc, hd]; exact .inr ⟨a, _, _, rfl, rfl, h.move hmove, size_of_type? hc⟩

theorem skip (h : C.Related s t) (mark : String) : C.Leads s t (s.skip mark) (t.skip mark) := by
  rw [Reading.skip, Reading.skip]
  rcases h.eat_cases mark with ⟨hs, ht⟩ | ⟨s', t', hs, ht, h'⟩
  · rw [hs, ht]; exact .refl h
  · rw [hs, ht]; exact h'.leads

theorem reportAt (h : C.Related s t) {p q : Position} (hpq : C.positions p q) (defect : Defect) :
    C.Leads s t (s.reportAt p defect) (t.reportAt q defect) :=
  ⟨⟨h.cursor, h.outline, C.report defect h.errors hpq, h.stalled⟩, Nat.le_refl _, id⟩

theorem report (h : C.Related s t) (defect : Defect) : C.Leads s t (s.report defect) (t.report defect) :=
  h.reportAt (C.position h.cursor) defect

theorem require (h : C.Related s t) (mark : String) (defect : Defect) :
    C.Leads s t (s.require mark defect) (t.require mark defect) := by
  rw [Reading.require, Reading.require]
  rcases h.eat_cases mark with ⟨hs, ht⟩ | ⟨s', t', hs, ht, h'⟩
  · rw [hs, ht]; exact h.report defect
  · rw [hs, ht]; exact h'.leads

variable {i j : ScopeId}

theorem openScope (h : C.Related s t) (hij : C.scopes s.outline t.outline i j) (kind : ScopeKind)
    (name : Option String) (hkind : kind ≠ .file) :
    C.Leads s t (s.openScope kind name i).2 (t.openScope kind name j).2 ∧
      C.scopes (s.openScope kind name i).2.outline (t.openScope kind name j).2.outline
        (s.openScope kind name i).1 (t.openScope kind name j).1 := by
  obtain ⟨houtline, hid, hmono⟩ := C.addScope kind name none hkind h.outline hij
  exact ⟨⟨⟨h.cursor, houtline, h.errors, h.stalled⟩, Nat.le_refl _, hmono⟩, hid⟩

theorem openType (h : C.Related s t) (hij : C.scopes s.outline t.outline i j) (kind : TypeKind) (name : String) :
    C.Leads s t (s.openType kind name i).2 (t.openType kind name j).2 ∧
      C.scopes (s.openType kind name i).2.outline (t.openType kind name j).2.outline
        (s.openType kind name i).1 (t.openType kind name j).1 := by
  obtain ⟨houtline, hid, hmono⟩ := C.addScope .typeBody (some name) (some kind) nofun h.outline hij
  exact ⟨⟨⟨h.cursor, houtline, h.errors, h.stalled⟩, Nat.le_refl _, hmono⟩, hid⟩

theorem declare (h : C.Related s t) (hij : C.scopes s.outline t.outline i j) {d e : Declaration}
    (hde : d.Alike C.positions C.groups e) : C.Leads s t (s.declare i d) (t.declare j e) := by
  obtain ⟨houtline, hmono⟩ := C.declare h.outline hij hde
  exact ⟨⟨h.cursor, houtline, h.errors, h.stalled⟩, Nat.le_refl _, hmono⟩

theorem newGroup (h : C.Related s t) :
    C.groups s.newGroup.1 t.newGroup.1 ∧ C.Leads s t s.newGroup.2 t.newGroup.2 := by
  obtain ⟨hgroup, houtline, hmono⟩ := C.newGroup h.outline
  exact ⟨hgroup, ⟨h.cursor, houtline, h.errors, h.stalled⟩, Nat.le_refl _, hmono⟩

theorem isStill (h : C.Related s t) (h' : C.Related s' t') :
    (s.cursor.isStill s'.cursor = true ∧ t.cursor.isStill t'.cursor = true ∧ s'.cursor = s.cursor) ∨
      s.cursor.isStill s'.cursor = false ∧ t.cursor.isStill t'.cursor = false ∧ s'.size ≠ s.size := by
  by_cases hsize : s'.size = s.size
  · obtain ⟨hs, ht⟩ := C.eq_of_size h'.cursor h.cursor hsize
    exact .inl ⟨by rw [hs]; simp [Cursor.isStill], by rw [ht]; simp [Cursor.isStill], hs⟩
  · have hsize' : t'.size ≠ t.size := by rwa [← h'.size_eq, ← h.size_eq]
    refine .inr ⟨?_, ?_, hsize⟩
    · rw [Cursor.isStill,
        beq_eq_false_iff_ne.mpr (show s'.cursor.ahead.length ≠ s.cursor.ahead.length from hsize), Bool.and_false]
    · rw [Cursor.isStill,
        beq_eq_false_iff_ne.mpr (show t'.cursor.ahead.length ≠ t.cursor.ahead.length from hsize'), Bool.and_false]

/-- A guarded reader consumes a token. -/
theorem progress (h : C.Related s t) (hne : s.cursor.ahead ≠ []) {f g : Reading → Reading}
    (hread : C.Leads s t (f s) (g t)) : C.Advances s t (s.progress f) (t.progress g) := by
  rw [Reading.progress, Reading.progress]
  rcases h.isStill hread.related with ⟨hs, ht, hcursor⟩ | ⟨hs, ht, hsize⟩
  · simp only [hs, ht, ↓reduceIte]
    rcases h.peek_cases with ⟨hnone, -⟩ | ⟨a, b, ha, hb, hab⟩
    · exact absurd (List.head?_eq_none_iff.mp hnone) hne
    · simp only [ha, hb, (C.alike hab).text]
      have hreport := hread.trans (hread.related.report (.unexpected b.text))
      refine hreport.advances (hreport.related.next ?_)
      rwa [show ((f s).report _).cursor = (f s).cursor from rfl, hcursor]
  · simp only [hs, ht, Bool.false_eq_true, ↓reduceIte]
    exact ⟨hread, Nat.lt_of_le_of_ne hread.size_le hsize⟩

end Related

/-- A loop whose state holds a reading and some `extra` leads where its rounds lead. -/
theorem rounds_leads_with {σ τ ρ ρ' : Type} (reading : σ → Reading) (reading' : τ → Reading)
    (extra : σ → τ → Prop) {Q : ρ → ρ' → Prop} {round : σ → Round σ ρ} {round' : τ → Round τ ρ'}
    {stalled : σ → ρ} {stalled' : τ → ρ'}
    (hround : ∀ {a : σ} {b : τ}, extra a b → C.Leads s t (reading a) (reading' b) →
      Round.Rel (fun a' b' => extra a' b' ∧ C.Advances (reading a) (reading' b) (reading a') (reading' b')) Q
        (round a) (round' b))
    {a : σ} {b : τ} (hab : extra a b) (h : C.Leads s t (reading a) (reading' b)) :
    Q (rounds (fun a => (reading a).size) round stalled a)
      (rounds (fun b => (reading' b).size) round' stalled' b) := by
  refine rounds_rel (R := fun a b => extra a b ∧ C.Leads s t (reading a) (reading' b)) ?_ ⟨hab, h⟩
  rintro a b ⟨hab, h⟩
  refine (hround hab h).imp (fun hagain => ?_) id
  obtain ⟨hab', hagain⟩ := hagain
  refine ⟨⟨hab', h.trans hagain.leads⟩, hagain.size_lt, ?_⟩
  rw [← hagain.leads.related.size_eq, ← h.related.size_eq]
  exact hagain.size_lt

/-- What the last round makes of readings behind `s` and `t` holds behind the loop. -/
theorem rounds_result {Q : Reading → Reading → Prop} {round round' : Reading → Round Reading Reading}
    (h : C.Related s t)
    (hround : ∀ {s' t' : Reading}, C.Leads s t s' t' → Round.Rel (C.Advances s' t') Q (round s') (round' t')) :
    Q (rounds Reading.size round Reading.stall s) (rounds Reading.size round' Reading.stall t) :=
  rounds_leads_with id id (fun _ _ => True)
    (fun _ h' => (hround h').imp (fun hagain => ⟨trivial, hagain⟩) id) trivial (.refl h)

/-- A loop leads where its rounds lead. -/
theorem rounds_leads {round round' : Reading → Round Reading Reading} (h : C.Related s t)
    (hround : ∀ {s' t' : Reading}, C.Leads s t s' t' →
      Round.Rel (C.Advances s' t') (C.Leads s' t') (round s') (round' t')) :
    C.Leads s t (rounds Reading.size round Reading.stall s) (rounds Reading.size round' Reading.stall t) :=
  rounds_result h fun h' => (hround h').imp id h'.trans

theorem Related.recoverRound (h : C.Related s t) :
    Round.Rel (C.Advances s t) (C.Leads s t) (Reading.recoverRound s) (Reading.recoverRound t) := by
  rw [Reading.recoverRound, Reading.recoverRound]
  rcases h.peek_cases with ⟨hs, ht⟩ | ⟨a, b, hs, ht, hab⟩
  · rw [hs, ht]; exact .done (.refl h)
  · have halike := C.alike hab
    have hne := ahead_ne_nil_of_peek? hs
    simp only [hs, ht, ← halike.isPunctuation, ← halike.isOpener]
    have hgroup : C.Advances s t (s.move .skipGroup) (t.move .skipGroup) :=
      ⟨h.move ⟨C.skipBrackets h.cursor, Nat.le_of_lt (size_skipGroup_lt hne)⟩, size_skipGroup_lt hne⟩
    split
    · exact .done (h.next hne).leads
    · split
      · exact .done (.refl h)
      · split
        · exact .done hgroup.leads
        · split
          · exact .again hgroup
          · exact .again (h.next hne)

theorem Related.recover (h : C.Related s t) : C.Leads s t s.recover t.recover :=
  rounds_leads h fun h' => h'.related.recoverRound

/-- Recovery consumes a token unless the body ends here. -/
theorem Related.recover_advances (h : C.Related s t) {a : Token} (ha : s.peek? = some a)
    (hbrace : a.isPunctuation "\x7d" = false) : C.Advances s t s.recover t.recover := by
  refine ⟨h.recover, ?_⟩
  have hne := ahead_ne_nil_of_peek? ha
  have hnext : s.next.size < s.size := size_next_lt hne
  have hgroup : (s.move .skipGroup).size < s.size := size_skipGroup_lt hne
  have hround := h.recoverRound
  cases hs : Reading.recoverRound s with
  | done s' =>
    rw [Reading.recover, rounds_of_done hs]
    simp only [Reading.recoverRound, ha, hbrace, Bool.false_eq_true, ↓reduceIte] at hs
    repeat' split at hs
    all_goals cases hs
    all_goals assumption
  | again s' =>
    rw [hs] at hround
    generalize Reading.recoverRound t = r at hround
    cases hround with
    | again hagain =>
      rw [Reading.recover, rounds_of_again hs hagain.size_lt]
      exact Nat.lt_of_le_of_lt hagain.leads.related.recover.size_le hagain.size_lt

end Correspondence

end CSharpStyle
