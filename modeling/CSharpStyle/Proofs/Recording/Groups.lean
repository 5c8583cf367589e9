import CSharpStyle.Proofs.Lexical.Places
import CSharpStyle.Proofs.Recording.CompilationUnit

/-!
# Declarators of one declaration

The members of a group are numbered in the order in which they are recorded, and agree in everything that their
declaration says. Each but the first stands directly behind a comma. Values may open groups of their own in between, but
these have numbers of their own and are closed before the next member is recorded.

* `Outline.members`: the declarations with the number of a group.
* `DeclaratorGroup.Describes`: a group and its members.
* `DeclaratorGroup.Consumed`: a group and the tokens of its names.
* `Stage.Grouped`: every number is that of one group, open or closed, which describes the members.
* `Stage.Step.grouped`: every step keeps this.
* `CompilationUnit.exists_group`: the groups of a file.
-/

namespace CSharpStyle

def Declaration.isIn (d : Declaration) (group : Nat) : Bool := d.group.any (·.group == group)

/-- The declarations of a group, in the order in which they were recorded. -/
def Outline.members (o : Outline) (group : Nat) : List Declaration := o.declarations.toList.filter (·.isIn group)

namespace Outline

variable {o : Outline} {scope : ScopeId} {d : Declaration} {group : Nat}

theorem mem_declare {e : Declaration} :
    e ∈ (o.declare scope d).declarations.toList ↔ e ∈ o.declarations.toList ∨ e = { d with scope } := by
  rw [declare, Array.toList_push, List.mem_append, List.mem_singleton]

theorem members_declare (h : d.isIn group) :
    (o.declare scope d).members group = o.members group ++ [{ d with scope }] := by
  have hisIn : ({ d with scope } : Declaration).isIn group := h
  rw [members, declare, Array.toList_push, List.filter_append, List.filter_singleton, hisIn]
  rfl

theorem members_declare_of_not (h : d.isIn group = false) :
    (o.declare scope d).members group = o.members group := by
  have hisIn : ({ d with scope } : Declaration).isIn group = false := h
  rw [members, declare, Array.toList_push, List.filter_append, List.filter_singleton, hisIn]
  exact List.append_nil _

end Outline

namespace DeclaratorGroup

/-- The members are those of the group, in order. -/
structure Describes (g : DeclaratorGroup) (members : List Declaration) : Prop where
  places : members.map (·.group) = (List.range g.names.length).map fun index => some ⟨g.number, index⟩
  positions : members.map (·.position) = g.names.reverse.map (·.start)
  alike : ∀ d ∈ members, d.scope = g.scope ∧ d.role = g.role ∧ d.kind = g.kind ∧ d.accessibility = g.accessibility

namespace Describes

variable {g : DeclaratorGroup} {members : List Declaration}

theorem nil (h : g.names = []) : g.Describes [] := by
  refine ⟨?_, ?_, fun _ hmem => absurd hmem List.not_mem_nil⟩
  · rw [h]
    rfl
  · rw [h]
    rfl

/-- The next member is the one behind all others. -/
theorem add (h : g.Describes members) {t : Token} {d : Declaration} (hnext : g.Next t d) :
    (g.add t).Describes (members ++ [{ d with scope := g.scope }]) := by
  refine ⟨?_, ?_, ?_⟩
  · rw [List.map_append, h.places]
    simp [DeclaratorGroup.add, List.range_succ, hnext.place]
  · rw [List.map_append, h.positions]
    simp [DeclaratorGroup.add, hnext.position]
  · intro e he
    rcases List.mem_append.mp he with he | he
    · exact h.alike e he
    · obtain rfl := List.mem_singleton.mp he
      exact ⟨rfl, hnext.role, hnext.kind, hnext.accessibility⟩

end Describes

/-- The names of the group were consumed in order, each but the first directly behind a comma. -/
structure Consumed (g : DeclaratorGroup) (before : List Token) : Prop where
  names : g.names.Sublist before
  joined : ∀ {t : Token} {names : List Token}, t :: names <:+ g.names → Joined before names t

namespace Consumed

variable {g : DeclaratorGroup} {before before' : List Token}

theorem nil (h : g.names = []) : g.Consumed before where
  names := h ▸ List.nil_sublist before
  joined hsuffix := absurd (List.suffix_nil.mp (h ▸ hsuffix)) (List.cons_ne_nil _ _)

theorem mono (h : g.Consumed before) (hbehind : before <:+ before') : g.Consumed before' where
  names := h.names.trans hbehind.sublist
  joined hsuffix := (h.joined hsuffix).mono hbehind

theorem add (h : g.Consumed before) {t : Token} (hnames : (t :: g.names).Sublist before)
    (hjoined : Joined before g.names t) : (g.add t).Consumed before where
  names := hnames
  joined {u names} hsuffix := by
    rcases List.suffix_cons_iff.mp hsuffix with heq | hsuffix
    · cases heq
      exact hjoined
    · exact h.joined hsuffix

end Consumed

/-- Each member is one of the names, and goes on with those in front of it. -/
theorem Describes.exists_name {g : DeclaratorGroup} {members : List Declaration} {before : List Token}
    (hmembers : g.Describes members) (hnames : g.Consumed before) {d : Declaration} (hd : d ∈ members) :
    ∃ index t names, d.group = some ⟨g.number, index⟩ ∧ d.position = t.start ∧ Joined before names t ∧
      (names = [] ↔ index = 0) := by
  obtain ⟨index, hindex, rfl⟩ := List.getElem_of_mem hd
  have hlength : members.length = g.names.length := by simpa using congrArg List.length hmembers.places
  have hplace : members[index].group = some ⟨g.number, index⟩ := by
    have hget := congrArg (·[index]?) hmembers.places
    simpa [hindex, hlength ▸ hindex] using hget
  -- The names are listed from the last one on.
  have hlt : g.names.length - 1 - index < g.names.length := by omega
  have hrest : g.names.length - 1 - index + 1 = g.names.length - index := by omega
  have hposition : members[index].position = g.names[g.names.length - 1 - index].start := by
    have hget := congrArg (·[index]?) hmembers.positions
    simpa [hindex, hlength ▸ hindex] using hget
  have hsuffix : g.names[g.names.length - 1 - index] :: g.names.drop (g.names.length - index) <:+ g.names := by
    rw [← hrest, ← List.drop_eq_getElem_cons hlt]
    exact List.drop_suffix _ _
  refine ⟨index, _, _, hplace, hposition, hnames.joined hsuffix, ?_⟩
  rw [List.drop_eq_nil_iff]
  omega

end DeclaratorGroup

namespace Stage

/-- The groups that were opened so far have the first numbers, each its own. They describe the members, whose names were
consumed in order. -/
structure Grouped (closed : List DeclaratorGroup) (σ : Stage) : Prop where
  numbers : ((σ.opened ++ closed).map (·.number)).Perm (List.range σ.reading.outline.groups)
  described : ∀ g ∈ σ.opened ++ closed,
    g.Describes (σ.reading.outline.members g.number) ∧ g.Consumed σ.reading.cursor.before
  known : ∀ d ∈ σ.reading.outline.declarations.toList, ∀ place ∈ d.group, place.group < σ.reading.outline.groups
  formed : ∀ d ∈ σ.reading.outline.declarations.toList, d.formsGroup → d.group.isSome

theorem grouped_ofTokens (tokens : List Token) : (Stage.ofTokens tokens).Grouped [] where
  numbers := .refl _
  described _ hg := absurd hg List.not_mem_nil
  known _ hd := absurd hd List.not_mem_nil
  formed _ hd := absurd hd List.not_mem_nil

namespace Grouped

variable {closed opened : List DeclaratorGroup} {held held' : List Token} {s s' : Reading}

/-- Consuming tokens and recording directives changes no group. -/
theorem behind (h : Grouped closed ⟨opened, held, s⟩) (hcursor : s.cursor.before <:+ s'.cursor.before)
    (hdeclarations : s'.outline.declarations = s.outline.declarations)
    (hgroups : s'.outline.groups = s.outline.groups) : Grouped closed ⟨opened, held', s'⟩ where
  numbers := hgroups ▸ h.numbers
  described g hg := by
    obtain ⟨hmembers, hnames⟩ := h.described g hg
    refine ⟨?_, hnames.mono hcursor⟩
    show g.Describes (s'.outline.members g.number)
    rw [Outline.members, hdeclarations]
    exact hmembers
  known d hd place hplace := by
    rw [hgroups]
    exact h.known d (hdeclarations ▸ hd) place hplace
  formed d hd := h.formed d (hdeclarations ▸ hd)

/-- A declaration by itself is in no group. -/
theorem declare (h : Grouped closed ⟨opened, held, s⟩) (scope : ScopeId) {d : Declaration} (hsingle : d.group = none)
    (hapart : d.formsGroup = false) : Grouped closed ⟨opened, held', s.declare scope d⟩ where
  numbers := h.numbers
  described g hg := by
    obtain ⟨hmembers, hnames⟩ := h.described g hg
    refine ⟨?_, hnames⟩
    have hnot : d.isIn g.number = false := by rw [Declaration.isIn, hsingle]; rfl
    show g.Describes ((s.outline.declare scope d).members g.number)
    rw [Outline.members_declare_of_not hnot]
    exact hmembers
  known e he place hplace := by
    rcases Outline.mem_declare.mp he with he | rfl
    · exact h.known e he place hplace
    · rw [show ({ d with scope } : Declaration).group = none from hsingle] at hplace
      cases hplace
  formed e he hforms := by
    rcases Outline.mem_declare.mp he with he | rfl
    · exact h.formed e he hforms
    · rw [show ({ d with scope } : Declaration).formsGroup = false from hapart] at hforms
      cases hforms

/-- A new group has the next number and no members. -/
theorem openGroup {g : DeclaratorGroup} (h : Grouped closed ⟨opened, held, s⟩) (hnumber : g.number = s.newGroup.1)
    (hfresh : g.names = []) : Grouped closed ⟨g :: opened, held, s.newGroup.2⟩ where
  numbers := by
    show (g.number :: (opened ++ closed).map (·.number)).Perm (List.range (s.outline.groups + 1))
    rw [List.range_succ, hnumber]
    exact (h.numbers.cons _).trans (List.perm_append_singleton _ _).symm
  described e he := by
    rcases List.mem_cons.mp he with rfl | he
    · have hnone : s.outline.members e.number = [] := by
        refine List.filter_eq_nil_iff.mpr fun d hd hisIn => ?_
        obtain ⟨place, hplace, hnum⟩ := (Option.any_eq_true _ _).mp hisIn
        have hlt : place.group < s.outline.groups := h.known d hd place hplace
        rw [eq_of_beq hnum, hnumber] at hlt
        exact Nat.lt_irrefl _ hlt
      refine ⟨?_, .nil hfresh⟩
      show e.Describes (s.outline.members e.number)
      rw [hnone]
      exact .nil hfresh
    · exact h.described e he
  known d hd place hplace := Nat.lt_succ_of_lt (h.known d hd place hplace)
  formed := h.formed

/-- The next member of the innermost group is in no other group. -/
theorem record {g : DeclaratorGroup} {t : Token} {d : Declaration} (h : Grouped closed ⟨g :: opened, held, s⟩)
    (hnext : g.Next t d) (hbehind : (t :: g.names).Sublist s.cursor.before)
    (hjoined : Joined s.cursor.before g.names t) :
    Grouped closed ⟨g.add t :: opened, held', s.declare g.scope d⟩ where
  numbers := h.numbers
  described e he := by
    have hnodup : ((g :: opened ++ closed).map (·.number)).Nodup := h.numbers.nodup_iff.mpr List.nodup_range
    rcases List.mem_cons.mp he with rfl | he
    · obtain ⟨hmembers, hnames⟩ := h.described g List.mem_cons_self
      refine ⟨?_, hnames.add hbehind hjoined⟩
      have hisIn : d.isIn g.number := by rw [Declaration.isIn, hnext.place]; exact beq_self_eq_true g.number
      show (g.add t).Describes ((s.outline.declare g.scope d).members g.number)
      rw [Outline.members_declare hisIn]
      exact hmembers.add hnext
    · obtain ⟨hmembers, hnames⟩ := h.described e (List.mem_cons_of_mem g he)
      refine ⟨?_, hnames⟩
      have hne : g.number ≠ e.number := by
        intro heq
        rw [List.cons_append, List.map_cons, List.nodup_cons] at hnodup
        exact hnodup.1 (heq ▸ List.mem_map_of_mem he)
      have hnot : d.isIn e.number = false := by rw [Declaration.isIn, hnext.place]; exact beq_false_of_ne hne
      show e.Describes ((s.outline.declare g.scope d).members e.number)
      rw [Outline.members_declare_of_not hnot]
      exact hmembers
  known e he place hplace := by
    rcases Outline.mem_declare.mp he with he | rfl
    · exact h.known e he place hplace
    · rw [show ({ d with scope := g.scope } : Declaration).group = _ from hnext.place] at hplace
      cases hplace
      have hmem : g.number ∈ (g :: opened ++ closed).map (·.number) := List.mem_map_of_mem List.mem_cons_self
      exact List.mem_range.mp (h.numbers.mem_iff.mp hmem)
  formed e he hforms := by
    rcases Outline.mem_declare.mp he with he | rfl
    · exact h.formed e he hforms
    · rw [show ({ d with scope := g.scope } : Declaration).group = _ from hnext.place]
      rfl

/-- A closed group is still a group. -/
theorem closeGroup {g : DeclaratorGroup} (h : Grouped closed ⟨g :: opened, held, s⟩) :
    Grouped (g :: closed) ⟨opened, held, s⟩ where
  numbers := (List.perm_middle.map _).trans h.numbers
  described e he := h.described e (List.perm_middle.mem_iff.mp he)
  known := h.known
  formed := h.formed

end Grouped

/-- Every step keeps that the groups describe their members. -/
theorem Step.grouped {σ τ : Stage} (h : σ.Step τ) (hσ : ∃ closed, Grouped closed σ) : ∃ closed, Grouped closed τ := by
  obtain ⟨closed, hσ⟩ := hσ
  cases h with
  | read _ behind declarations _ groups => exact ⟨closed, hσ.behind behind declarations groups⟩
  | declare scope _ _ single apart => exact ⟨closed, hσ.declare scope single apart⟩
  | addUsing => exact ⟨closed, hσ.behind List.suffix_rfl rfl rfl⟩
  | openGroup number fresh => exact ⟨closed, hσ.openGroup number fresh⟩
  | record next behind joined => exact ⟨closed, hσ.record next behind joined⟩
  | closeGroup => exact ⟨_ :: closed, hσ.closeGroup⟩

end Stage

namespace CompilationUnit

theorem grouped (tokens : List Token) :
    ∃ closed, Stage.Grouped closed ⟨[], [], NamespaceBody.read .file (Reading.ofTokens tokens)⟩ :=
  (run_ofTokens tokens).invariant (I := fun σ => ∃ closed, σ.Grouped closed) Stage.Step.grouped
    ⟨[], Stage.grouped_ofTokens tokens⟩

variable (tokens : List Token)

theorem group_lt {d : Declaration} (hd : d ∈ (ofTokens tokens).outline.declarations.toList) {place : GroupPlace}
    (hplace : d.group = some place) : place.group < (ofTokens tokens).outline.groups := by
  obtain ⟨closed, hend⟩ := grouped tokens
  exact hend.known d hd place hplace

theorem isSome_group {d : Declaration} (hd : d ∈ (ofTokens tokens).outline.declarations.toList) (h : d.formsGroup) :
    d.group.isSome := by
  obtain ⟨closed, hend⟩ := grouped tokens
  exact hend.formed d hd h

/-- Each number is that of a group, whose names are tokens of the file. It has no members if there are not so many
groups. -/
theorem exists_group (number : Nat) :
    ∃ g : DeclaratorGroup, g.number = number ∧ g.Describes ((ofTokens tokens).outline.members number) ∧
      g.Consumed tokens.reverse := by
  obtain ⟨closed, hend⟩ := grouped tokens
  by_cases hnumber : number < (ofTokens tokens).outline.groups
  · obtain ⟨g, hg, rfl⟩ := List.mem_map.mp (hend.numbers.mem_iff.mpr (List.mem_range.mpr hnumber))
    obtain ⟨hmembers, hnames⟩ := hend.described g hg
    have hcursor : (NamespaceBody.read .file (Reading.ofTokens tokens)).cursor = ⟨tokens.reverse, []⟩ :=
      (consumed_file tokens).cursor
    rw [hcursor] at hnames
    exact ⟨g, rfl, hmembers, hnames⟩
  · have hnone : (ofTokens tokens).outline.members number = [] := by
      refine List.filter_eq_nil_iff.mpr fun d hd hisIn => ?_
      obtain ⟨place, hplace, hgroup⟩ := (Option.any_eq_true _ _).mp hisIn
      have hlt := group_lt tokens hd hplace
      rw [eq_of_beq hgroup] at hlt
      exact hnumber hlt
    refine ⟨⟨number, Outline.root, .localVariable, .localVariable, .unspecified, []⟩, rfl, ?_, .nil rfl⟩
    rw [hnone]
    exact .nil rfl

end CompilationUnit

end CSharpStyle
