import CSharpStyle.Proofs.Findings.Order
import CSharpStyle.Rendering.Text
import Mathlib.Data.List.Induction

/-!
# Records under the headings of their files

The text for readers goes through the records file by file. Sorted records come file by file already, so that
nothing is rearranged: the groups put one behind the other are the records as they were.

* `TextFormat.enter_eq`: a record that comes behind all others joins the last group or makes one of its own.
* `TextFormat.groups_isGrouping`: the groups of sorted records are in order, each has one heading, and no two headings
  name one file.
-/

namespace CSharpStyle.TextFormat

/-- The groups hold the records in order, each those of one file, which is named as the first of them names it. -/
structure IsGrouping (records : List Record) (groups : List (Path × List Record)) : Prop where
  flatten : groups.flatMap (·.2) = records
  heading : ∀ g ∈ groups, g.2.head?.map (·.file) = some g.1
  file : ∀ g ∈ groups, ∀ r ∈ g.2, r.file.order g.1 = .eq
  increasing : groups.Pairwise fun g h => g.1.order h.1 = .lt

/-- A record that comes behind all others joins the last group, or makes a group of its own behind it. -/
theorem enter_eq (r : Record) {groups : List (Path × List Record)}
    (hincreasing : groups.Pairwise fun g h => g.1.order h.1 = .lt)
    (hbehind : ∀ g ∈ groups, (g.1.order r.file).isLE = true) :
    (∃ before file records, groups = before ++ [(file, records)] ∧ r.file.order file = .eq ∧
      enter r groups = before ++ [(file, records ++ [r])]) ∨
    ((∀ g ∈ groups, g.1.order r.file = .lt) ∧ enter r groups = groups ++ [(r.file, [r])]) := by
  induction groups with
  | nil => exact .inr ⟨fun _ h => absurd h List.not_mem_nil, rfl⟩
  | cons g groups ih =>
    obtain ⟨file, records⟩ := g
    obtain ⟨hfirst, hincreasing⟩ := List.pairwise_cons.mp hincreasing
    obtain ⟨hfile, hbehind⟩ := List.forall_mem_cons.mp hbehind
    have hswap : file.order r.file = (r.file.order file).swap := Std.OrientedCmp.eq_swap
    cases hcmp : r.file.order file with
    | lt =>
      rw [hswap, hcmp] at hfile
      cases hfile
    | eq =>
      -- A group behind this one would come behind the record as well.
      have hlast : groups = [] := by
        refine List.eq_nil_iff_forall_not_mem.mpr fun g hg => ?_
        have hlt : r.file.order g.1 = .lt := (Std.TransCmp.congr_left hcmp).trans (hfirst g hg)
        have hle := hbehind g hg
        rw [Std.OrientedCmp.gt_of_lt hlt] at hle
        cases hle
      refine .inl ⟨[], file, records, ?_, hcmp, ?_⟩
      · rw [hlast, List.nil_append]
      · rw [enter, hcmp, hlast, List.nil_append]
    | gt =>
      have henter : enter r ((file, records) :: groups) = (file, records) :: enter r groups := by rw [enter, hcmp]
      rcases ih hincreasing hbehind with ⟨before, file', records', hgroups, heq, hentered⟩ | ⟨hlt, hentered⟩
      · refine .inl ⟨(file, records) :: before, file', records', ?_, heq, ?_⟩
        · rw [hgroups, List.cons_append]
        · rw [henter, hentered, List.cons_append]
      · refine .inr ⟨List.forall_mem_cons.mpr ⟨?_, hlt⟩, ?_⟩
        · rw [hswap, hcmp]
          rfl
        · rw [henter, hentered, List.cons_append]

theorem IsGrouping.enter {records : List Record} {groups : List (Path × List Record)} (h : IsGrouping records groups)
    {r : Record} (hlast : ∀ s ∈ records, (s.file.order r.file).isLE = true) :
    IsGrouping (records ++ [r]) (enter r groups) := by
  have hbehind : ∀ g ∈ groups, (g.1.order r.file).isLE = true := by
    intro g hg
    obtain ⟨s, hs, hfile⟩ := Option.map_eq_some_iff.mp (h.heading g hg)
    rw [← hfile]
    refine hlast s ?_
    rw [← h.flatten]
    exact List.mem_flatMap.mpr ⟨g, hg, List.mem_of_mem_head? hs⟩
  have hself : r.file.order r.file = .eq := Std.ReflCmp.compare_self
  rcases enter_eq r h.increasing hbehind with ⟨before, file, own, rfl, hcmp, hentered⟩ | ⟨hlt, hentered⟩
  · obtain ⟨hflatten, hheading, hfile, hincreasing⟩ := h
    rw [hentered]
    rw [List.forall_mem_append] at hheading hfile
    rw [List.pairwise_append] at hincreasing
    refine ⟨?_, ?_, ?_, ?_⟩
    · simpa [List.flatMap_append, ← List.append_assoc] using congrArg (· ++ [r]) hflatten
    · refine List.forall_mem_append.mpr ⟨hheading.1, List.forall_mem_singleton.mpr ?_⟩
      have hown := List.forall_mem_singleton.mp hheading.2
      cases own with
      | nil => cases hown
      | cons s own => exact hown
    · refine List.forall_mem_append.mpr ⟨hfile.1, List.forall_mem_singleton.mpr ?_⟩
      exact List.forall_mem_append.mpr ⟨List.forall_mem_singleton.mp hfile.2, List.forall_mem_singleton.mpr hcmp⟩
    · refine List.pairwise_append.mpr ⟨hincreasing.1, List.pairwise_singleton .., fun g hg => ?_⟩
      exact List.forall_mem_singleton.mpr (hincreasing.2.2 g hg (file, own) (List.mem_singleton_self _))
  · rw [hentered]
    refine ⟨?_, ?_, ?_, ?_⟩
    · rw [List.flatMap_append, h.flatten]
      rfl
    · exact List.forall_mem_append.mpr ⟨h.heading, List.forall_mem_singleton.mpr rfl⟩
    · refine List.forall_mem_append.mpr ⟨h.file, List.forall_mem_singleton.mpr ?_⟩
      exact List.forall_mem_singleton.mpr hself
    · refine List.pairwise_append.mpr ⟨h.increasing, List.pairwise_singleton .., fun g hg => ?_⟩
      exact List.forall_mem_singleton.mpr (hlt g hg)

/-- Records whose files are in order are grouped as they are. -/
theorem groups_isGrouping {records : List Record}
    (h : records.Pairwise fun r s => (r.file.order s.file).isLE = true) : IsGrouping records (groups records) := by
  induction records using List.reverseRecOn with
  | nil => exact ⟨rfl, List.forall_mem_nil _, List.forall_mem_nil _, .nil⟩
  | append_singleton records r ih =>
    obtain ⟨hrecords, -, hlast⟩ := List.pairwise_append.mp h
    have hgroups : groups (records ++ [r]) = TextFormat.enter r (groups records) := List.foldl_concat ..
    rw [hgroups]
    exact (ih hrecords).enter fun s hs => hlast s hs r (List.mem_singleton_self r)

end CSharpStyle.TextFormat
