import CSharpStyle.Proofs.Findings.Distinct
import CSharpStyle.Proofs.Findings.Order
import CSharpStyle.Proofs.Recording.Groups

/-!
# Declarators on one line

The rule against several declarators on a line sorts the members of all groups by group and index, and compares each
with the one in front of it. As the members of a group have all indices from zero on, these are its neighbours in the
group, and the groups can be looked at one by one.

* `AreDeclarators`: the members of a group, in the order of the text.
* `CompilationUnit.areDeclarators_ofSource`: every group of a file has such members.
* `OneDeclarationPerLine.declarators_eq`: the sorted members are those of the groups, one group after another.
* `OneDeclarationPerLine.grouped_and_reported`: what the rule reports for a file.
-/

namespace CSharpStyle

/-! ### Members of a group -/

/-- Directly in front of the name at this position stands a comma. -/
def IsBehindComma (tokens : List Token) (position : Position) : Prop :=
  ∃ comma name : Token, [comma, name] <:+: tokens ∧ comma.isPunctuation "," ∧ name.start = position

/-- The declarators of one declaration: they are numbered from zero on, agree in what the declaration says, and come in
the order of the text. Each but the first stands directly behind a comma. -/
structure AreDeclarators (tokens : List Token) (group : Nat) (members : List Declaration) : Prop where
  numbered : members.map (·.group) = (List.range members.length).map fun index => some ⟨group, index⟩
  alike : ∀ d ∈ members, ∀ e ∈ members,
    d.scope = e.scope ∧ d.role = e.role ∧ d.kind = e.kind ∧ d.accessibility = e.accessibility
  ascending : members.Pairwise fun d e =>
    d.position.offset < e.position.offset ∧ d.position.place < e.position.place
  joined : ∀ d ∈ members, d.group = some ⟨group, 0⟩ ↔ ¬ IsBehindComma tokens d.position

theorem CompilationUnit.areDeclarators_ofSource (source : String) (group : Nat) :
    AreDeclarators (TokenStream.ofSource source).significant group ((ofSource source).outline.members group) := by
  obtain ⟨g, rfl, hmembers, hnames⟩ := exists_group (TokenStream.ofSource source).significant group
  have hmembers : g.Describes ((ofSource source).outline.members g.number) := hmembers
  have hlength : ((ofSource source).outline.members g.number).length = g.names.length := by
    simpa using congrArg List.length hmembers.places
  refine ⟨by rw [hlength]; exact hmembers.places, ?alike, ?ascending, ?joined⟩
  case alike =>
    intro d hd e he
    obtain ⟨hscope, hrole, hkind, haccessibility⟩ := hmembers.alike d hd
    obtain ⟨hscope', hrole', hkind', haccessibility'⟩ := hmembers.alike e he
    exact ⟨hscope.trans hscope'.symm, hrole.trans hrole'.symm, hkind.trans hkind'.symm,
      haccessibility.trans haccessibility'.symm⟩
  case ascending =>
    have htokens := (TokenStream.ascending_offsets source).and (TokenStream.ascending_significant source)
    have hpositions : (((ofSource source).outline.members g.number).map (·.position)).Pairwise
        fun p q => p.offset < q.offset ∧ p.place < q.place := by
      rw [hmembers.positions]
      exact List.pairwise_map.mpr (htokens.sublist (by simpa using hnames.names.reverse))
    exact List.pairwise_map.mp hpositions
  case joined =>
    intro d hd
    obtain ⟨index, t, names, hplace, hposition, ⟨p, hp, hcomma⟩, hfirst⟩ := hmembers.exists_name hnames hd
    have hinfix : [p, t] <:+: (TokenStream.ofSource source).significant := List.reverse_infix.mp hp
    have hbehind : IsBehindComma (TokenStream.ofSource source).significant d.position ↔ p.isPunctuation "," := by
      constructor
      · rintro ⟨comma, name, hname, hmark, hstart⟩
        rw [TokenStream.eq_of_isInfix source hinfix hname (hposition.symm.trans hstart.symm)]
        exact hmark
      · intro hmark
        exact ⟨p, t, hinfix, hmark, hposition.symm⟩
    rw [hbehind, hcomma, not_not, hfirst, hplace]
    simp

/-! ### Lists by key -/

section Keys

variable {α : Type} {key : α → Nat}

/-- Items with small keys are those of each key, one key after another. -/
theorem perm_flatMap_filter {items : List α} {n : Nat} (h : ∀ a ∈ items, key a < n) :
    ((List.range n).flatMap fun k => items.filter (key · == k)).Perm items := by
  induction n generalizing items with
  | zero =>
    rw [List.eq_nil_iff_forall_not_mem.mpr fun a ha => Nat.not_lt_zero _ (h a ha)]
    exact .nil
  | succ n ih =>
    have hlast : items.filter (key · == n) = items.filter fun a => !decide (key a < n) := by
      refine List.filter_congr fun a ha => ?_
      have hle := h a ha
      rw [Bool.eq_iff_iff, beq_iff_eq, Bool.not_eq_true', decide_eq_false_iff_not]
      omega
    have hrest : ∀ k ∈ List.range n,
        items.filter (key · == k) = (items.filter fun a => decide (key a < n)).filter (key · == k) := by
      intro k hk
      rw [List.filter_filter]
      refine List.filter_congr fun a _ => ?_
      have hlt := List.mem_range.mp hk
      rw [Bool.eq_iff_iff, Bool.and_eq_true, beq_iff_eq, decide_eq_true_eq]
      omega
    rw [List.range_succ, List.flatMap_append, List.flatMap_singleton, List.flatMap_congr hrest, hlast]
    have hsmall : ∀ a ∈ items.filter fun a => decide (key a < n), key a < n :=
      fun a ha => of_decide_eq_true (List.mem_filter.mp ha).2
    exact ((ih hsmall).append_right _).trans (List.filter_append_perm _ _)

end Keys

namespace OneDeclarationPerLine

section Neighbours

variable {α : Type} {p : α × α → Bool}

theorem mem_of_mem_neighbours {items : List α} {a b : α} (h : (a, b) ∈ neighbours items) : a ∈ items ∧ b ∈ items := by
  obtain ⟨ha, hb⟩ := List.of_mem_zip h
  exact ⟨ha, List.mem_of_mem_tail hb⟩

theorem neighbours_map {β : Type} (f : α → β) (items : List α) :
    neighbours (items.map f) = (neighbours items).map (Prod.map f f) := by
  rw [neighbours, neighbours, ← List.map_tail, List.zip_map]

/-- Between lists of which no items belong together, no neighbours do. -/
theorem filter_neighbours_append {items more : List α} (h : ∀ a ∈ items, ∀ b ∈ more, p (a, b) = false) :
    (neighbours (items ++ more)).filter p = (neighbours items).filter p ++ (neighbours more).filter p := by
  induction items with
  | nil => rfl
  | cons a items ih =>
    have hitems := ih fun b hb => h b (List.mem_cons_of_mem a hb)
    cases items with
    | nil =>
      cases more with
      | nil => rfl
      | cons b more =>
        have hab : p (a, b) = false := h a List.mem_cons_self b List.mem_cons_self
        show ((a, b) :: neighbours (b :: more)).filter p = _
        rw [List.filter_cons_of_neg (by simp [hab])]
        rfl
    | cons b items =>
      show ((a, b) :: neighbours (b :: items ++ more)).filter p =
        ((a, b) :: neighbours (b :: items)).filter p ++ (neighbours more).filter p
      rw [List.filter_cons, List.filter_cons, hitems]
      split <;> rfl

theorem filter_neighbours_flatMap {κ : Type} {keys : List κ} {f : κ → List α}
    (h : keys.Pairwise fun k l => ∀ a ∈ f k, ∀ b ∈ f l, p (a, b) = false) :
    (neighbours (keys.flatMap f)).filter p = keys.flatMap fun k => (neighbours (f k)).filter p := by
  induction keys with
  | nil => rfl
  | cons k keys ih =>
    rw [List.pairwise_cons] at h
    rw [List.flatMap_cons, List.flatMap_cons, filter_neighbours_append, ih h.2]
    intro a ha b hb
    obtain ⟨l, hl, hb⟩ := List.mem_flatMap.mp hb
    exact h.1 l hl a ha b hb

end Neighbours

/-! ### Sorted members -/

/-- The order of the members: by group, and by their places in it. -/
def byPlace (a b : GroupPlace × Declaration) : Ordering :=
  (compare a.1.group b.1.group).then (compare a.1.index b.1.index)

instance : Std.TransCmp byPlace :=
  inferInstanceAs (Std.TransCmp (compareLex (compareOn fun a : GroupPlace × Declaration => a.1.group)
    (compareOn fun a : GroupPlace × Declaration => a.1.index)))

def placed? (d : Declaration) : Option (GroupPlace × Declaration) := d.group.map fun place => (place, d)

theorem byPlace_lt_of_group {a b : GroupPlace × Declaration} (h : a.1.group < b.1.group) : byPlace a b = .lt := by
  rw [byPlace, Nat.compare_eq_lt.mpr h]
  rfl

theorem byPlace_lt_of_index {a b : GroupPlace × Declaration} (hgroup : a.1.group = b.1.group)
    (h : a.1.index < b.1.index) : byPlace a b = .lt := by
  rw [byPlace, hgroup, Nat.compare_eq_eq.mpr rfl, Nat.compare_eq_lt.mpr h]
  rfl

theorem filter_placed (declarations : List Declaration) (group : Nat) :
    (declarations.filterMap placed?).filter (·.1.group == group) =
      (declarations.filter (·.isIn group)).filterMap placed? := by
  rw [List.filter_filterMap, List.filterMap_filter]
  refine List.filterMap_congr fun d _ => ?_
  cases hgroup : d.group with
  | none => simp [placed?, hgroup]
  | some place => simp [placed?, Declaration.isIn, hgroup, Option.filter]

end OneDeclarationPerLine

namespace AreDeclarators

open OneDeclarationPerLine (placed?)

variable {tokens : List Token} {group : Nat} {members : List Declaration}

theorem exists_index (h : AreDeclarators tokens group members) {d : Declaration} (hd : d ∈ members) :
    ∃ index, d.group = some ⟨group, index⟩ := by
  have hmem : d.group ∈ (List.range members.length).map fun index => some ⟨group, index⟩ := by
    rw [← h.numbered]
    exact List.mem_map_of_mem hd
  obtain ⟨index, -, heq⟩ := List.mem_map.mp hmem
  exact ⟨index, heq.symm⟩

theorem map_fst (h : AreDeclarators tokens group members) :
    (members.filterMap placed?).map Prod.fst = (List.range members.length).map fun index => ⟨group, index⟩ := by
  have hgroup : ∀ d ∈ members, (placed? d).map Prod.fst = d.group := by
    intro d _
    cases hgroup : d.group <;> simp [placed?, hgroup]
  have hplaces : members.filterMap (·.group) = (members.map (·.group)).filterMap id := by
    rw [List.filterMap_map]
    rfl
  rw [List.map_filterMap, List.filterMap_congr hgroup, hplaces, h.numbered, List.filterMap_map]
  exact congrFun List.filterMap_eq_map _

theorem map_snd (h : AreDeclarators tokens group members) : (members.filterMap placed?).map Prod.snd = members := by
  rw [List.map_filterMap]
  have hself : ∀ d ∈ members, (placed? d).map Prod.snd = some d := by
    intro d hd
    obtain ⟨index, hindex⟩ := h.exists_index hd
    rw [placed?, hindex]
    rfl
  rw [List.filterMap_congr hself, List.filterMap_some]

theorem pairwise_placed (h : AreDeclarators tokens group members) :
    (members.filterMap placed?).Pairwise fun a b => a.1.group = b.1.group ∧ a.1.index < b.1.index := by
  have hplaces : ((members.filterMap placed?).map Prod.fst).Pairwise
      fun p q => p.group = q.group ∧ p.index < q.index := by
    rw [h.map_fst]
    exact List.pairwise_map.mpr (List.pairwise_lt_range.imp fun hlt => ⟨rfl, hlt⟩)
  exact List.pairwise_map.mp hplaces

theorem group_eq (h : AreDeclarators tokens group members) {p : GroupPlace × Declaration}
    (hp : p ∈ members.filterMap placed?) : p.1.group = group := by
  have hmem : p.1 ∈ (List.range members.length).map fun index => ⟨group, index⟩ := h.map_fst ▸ List.mem_map_of_mem hp
  obtain ⟨index, -, heq⟩ := List.mem_map.mp hmem
  rw [← heq]

end AreDeclarators

namespace OneDeclarationPerLine

variable {s : Subject} {o : Outline} {tokens : List Token}

/-- A violation for each member that stands on the line of the one in front of it. -/
def sameLineViolations (s : Subject) (members : List Declaration) : List Violation :=
  ((neighbours members).filter fun (previous, current) => previous.position.line == current.position.line).map
    fun (previous, current) =>
      s.violation .oneDeclarationPerLine current.position
        s!"'{current.name}' is declared on the same line as '{previous.name}'"
        (some s!"declare '{current.name}' on its own line")

/-- The sorted members are those of the groups, one group after another. -/
theorem declarators_eq (houtline : s.outline = some o)
    (hgroups : ∀ group, AreDeclarators tokens group (o.members group))
    (hknown : ∀ d ∈ o.declarations.toList, ∀ place ∈ d.group, place.group < o.groups) :
    declarators s = (List.range o.groups).flatMap fun group => (o.members group).filterMap placed? := by
  have hdeclarations : s.declarations = o.declarations.toList := by rw [Subject.declarations, houtline]; rfl
  refine @sortBy_eq_of_pairwise_lt _ byPlace _ _ _ ?perm ?sorted
  case perm =>
    rw [hdeclarations]
    have hgroups : ∀ p ∈ o.declarations.toList.filterMap placed?, p.1.group < o.groups := by
      intro p hp
      obtain ⟨d, hd, hplaced⟩ := List.mem_filterMap.mp hp
      obtain ⟨place, hplace, rfl⟩ := Option.map_eq_some_iff.mp hplaced
      exact hknown d hd place hplace
    have hperm := perm_flatMap_filter hgroups
    simp only [filter_placed] at hperm
    exact hperm.symm
  case sorted =>
    refine List.pairwise_flatMap.mpr ⟨fun group _ => ?_, List.pairwise_lt_range.imp fun hlt a ha b hb => ?_⟩
    · exact (hgroups group).pairwise_placed.imp fun hplaces => byPlace_lt_of_index hplaces.1 hplaces.2
    · refine byPlace_lt_of_group ?_
      rw [(hgroups _).group_eq ha, (hgroups _).group_eq hb]
      exact hlt

/-- The members of each group are compared with the ones in front of them. -/
theorem check_eq (houtline : s.outline = some o)
    (hgroups : ∀ group, AreDeclarators tokens group (o.members group))
    (hknown : ∀ d ∈ o.declarations.toList, ∀ place ∈ d.group, place.group < o.groups) :
    check s = (List.range o.groups).flatMap fun group => sameLineViolations s (o.members group) := by
  rw [check, declarators_eq houtline hgroups hknown, filter_neighbours_flatMap, List.map_flatMap]
  · refine List.flatMap_congr fun group _ => ?_
    have hpairs : neighbours (o.members group) =
        (neighbours ((o.members group).filterMap placed?)).map (Prod.map Prod.snd Prod.snd) := by
      rw [← neighbours_map, (hgroups group).map_snd]
    have hsame : ∀ pair ∈ neighbours ((o.members group).filterMap placed?), pair.1.1.group = pair.2.1.group := by
      intro pair hpair
      obtain ⟨hprevious, hcurrent⟩ := mem_of_mem_neighbours hpair
      rw [(hgroups group).group_eq hprevious, (hgroups group).group_eq hcurrent]
    rw [sameLineViolations, hpairs, List.filter_map, List.map_map]
    refine congrArg _ (List.filter_congr fun pair hpair => ?_)
    simp [hsame pair hpair]
  · refine List.pairwise_lt_range.imp fun hlt a ha b hb => ?_
    have hne : a.1.group ≠ b.1.group := by
      rw [(hgroups _).group_eq ha, (hgroups _).group_eq hb]
      exact Nat.ne_of_lt hlt
    simp [hne]

/-- The members of each group of a file are the declarators of one declaration, and fields and local constants are
always in a group. Of a file without lexical errors, the rule reports each member that stands on the line of the one in
front of it, group by group, and nothing else. -/
theorem grouped_and_reported :
    (∀ source : String,
      let o := (CompilationUnit.ofSource source).outline
      (∀ group, AreDeclarators (TokenStream.ofSource source).significant group (o.members group)) ∧
        ∀ d ∈ o.declarations.toList,
          (∀ place ∈ d.group, place.group < o.groups) ∧ (d.formsGroup → d.group.isSome)) ∧
    ∀ (file : Path) (source : String) (symbols : Symbols), (TokenStream.ofSource source).errors = [] →
      let o := (CompilationUnit.ofSource source).outline
      let s := Subject.ofStream file source (.ofSource source)
        ((FileAnalyzer.unit? (.ofSource source)).map (·.outline)) symbols
      check s = (List.range o.groups).flatMap fun group => sameLineViolations s (o.members group) := by
  refine ⟨fun source => ⟨CompilationUnit.areDeclarators_ofSource source, fun d hd => ⟨fun place => ?known, ?formed⟩⟩,
    fun file source symbols herrors => ?reported⟩
  case known => exact CompilationUnit.group_lt _ hd
  case formed => exact CompilationUnit.isSome_group _ hd
  case reported =>
    have houtline : (FileAnalyzer.unit? (.ofSource source)).map (·.outline) =
        some (CompilationUnit.ofSource source).outline := by
      rw [FileAnalyzer.unit?, herrors]
      rfl
    exact check_eq houtline (CompilationUnit.areDeclarators_ofSource source) fun d hd place hplace =>
      CompilationUnit.group_lt _ hd hplace

/-- The lambda in the value of a field declares two locals before the next field: each group is reported by itself. -/
theorem grouped_and_reported_in_lambda :
    let source := "class c \x7b int x = F(() => \x7b int a, b; \x7d), y; \x7d"
    let o := (CompilationUnit.ofSource source).outline
    let s := Subject.ofStream ⟨"C.cs"⟩ source (.ofSource source)
      ((FileAnalyzer.unit? (.ofSource source)).map (·.outline)) .unknown
    (TokenStream.ofSource source).errors = [] ∧
    ((List.range o.groups).map fun group => (o.members group).map (·.name)) = [["x", "y"], ["a", "b"]] ∧
    check s = (List.range o.groups).flatMap fun group => sameLineViolations s (o.members group) := by
  intro source
  have herrors : (TokenStream.ofSource source).errors = [] := by decide +kernel
  exact ⟨herrors, by decide +kernel, grouped_and_reported.2 ⟨"C.cs"⟩ source .unknown herrors⟩

end OneDeclarationPerLine

end CSharpStyle
