import CSharpStyle.Convention.RuleSet
import Mathlib.Data.List.Basic

/-!
# Checks of a rule set

The checks of a rule set are run one behind the other, and each reports its own rule. If no rule stands twice in the
set, the violations of a rule are those of its check alone.

* `RuleSet.run_eq_flatMap`: what a rule set finds, check by check.
* `EnabledCheck.rule_of_mem_run`: a check reports its own rule.
* `RuleSet.filter_rule_run`: the violations of a rule are found by its check.
-/

namespace CSharpStyle

/-- The violations of a check in a file that allows it, with the severity that was chosen. -/
def EnabledCheck.run (e : EnabledCheck) (s : Subject) : List Violation :=
  if s.outline.isSome || !e.check.rule.needsOutline then (e.check.run s).map fun v => { v with severity := e.severity }
  else []

/-- A check reports its own rule. -/
theorem Check.rule_of_mem_run {c : Check} {s : Subject} {v : Violation} (h : v ∈ c.run s) : v.rule = c.rule.name := by
  cases c <;> obtain ⟨_, -, rfl⟩ := List.mem_map.mp h <;> rfl

theorem EnabledCheck.rule_of_mem_run {e : EnabledCheck} {s : Subject} {v : Violation} (h : v ∈ e.run s) :
    v.rule = e.check.rule.name := by
  rw [EnabledCheck.run] at h
  split at h
  · obtain ⟨w, hw, rfl⟩ := List.mem_map.mp h
    have hname : w.rule = e.check.rule.name := Check.rule_of_mem_run hw
    exact hname
  · cases h

/-- Of the violations of a check, either all or none are of a given rule. -/
theorem EnabledCheck.filter_rule_run (e : EnabledCheck) (s : Subject) (name : String) :
    (e.run s).filter (·.rule == name) = if e.check.rule.name = name then e.run s else [] := by
  by_cases hname : e.check.rule.name = name
  · rw [if_pos hname, List.filter_eq_self]
    intro v hv
    rw [beq_iff_eq, rule_of_mem_run hv, hname]
  · rw [if_neg hname, List.filter_eq_nil_iff]
    intro v hv
    rw [beq_iff_eq, rule_of_mem_run hv]
    exact hname

namespace RuleSet

theorem run_eq_flatMap (set : RuleSet) (s : Subject) : set.run s = set.flatMap (·.run s) := by
  induction set with
  | nil => rfl
  | cons e set ih =>
    rw [List.flatMap_cons, ← ih, EnabledCheck.run, run, List.filter_cons]
    split
    · rfl
    · rfl

theorem run_cons (e : EnabledCheck) (set : RuleSet) (s : Subject) : run (e :: set) s = e.run s ++ run set s := by
  rw [run_eq_flatMap, run_eq_flatMap, List.flatMap_cons]

/-- A rule that is not in the set has no violations. -/
theorem filter_rule_run_of_forall_ne {set : RuleSet} {name : String} (h : ∀ e ∈ set, e.check.rule.name ≠ name)
    (s : Subject) : (set.run s).filter (·.rule == name) = [] := by
  rw [List.filter_eq_nil_iff]
  intro v hv
  rw [run_eq_flatMap] at hv
  obtain ⟨e, he, hv⟩ := List.mem_flatMap.mp hv
  rw [beq_iff_eq, EnabledCheck.rule_of_mem_run hv]
  exact h e he

/-- The violations of a rule are those of its check, if no rule stands twice in the set. -/
theorem filter_rule_run {set : RuleSet} (h : (set.map (·.check.rule.name)).Nodup) {e : EnabledCheck} (he : e ∈ set)
    (s : Subject) : (set.run s).filter (·.rule == e.check.rule.name) = e.run s := by
  induction set with
  | nil => cases he
  | cons first set ih =>
    rw [List.map_cons, List.nodup_cons] at h
    have hother : ∀ other ∈ set, other.check.rule.name ≠ first.check.rule.name := fun other hother heq =>
      h.1 (List.mem_map.mpr ⟨other, hother, heq⟩)
    rw [run_cons, List.filter_append, EnabledCheck.filter_rule_run]
    rcases List.mem_cons.mp he with rfl | hrest
    · rw [if_pos rfl, filter_rule_run_of_forall_ne hother, List.append_nil]
    · rw [if_neg (hother e hrest).symm, List.nil_append, ih h.2 hrest]

/-- Rule sets with the same checks in different order find the same of each rule. -/
theorem filter_rule_run_perm {set set' : RuleSet} (h : (set.map (·.check.rule.name)).Nodup) (hperm : set.Perm set')
    (s : Subject) (name : String) : (set.run s).filter (·.rule == name) = (set'.run s).filter (·.rule == name) := by
  by_cases hname : ∃ e ∈ set, e.check.rule.name = name
  · obtain ⟨e, he, rfl⟩ := hname
    have h' : (set'.map (·.check.rule.name)).Nodup := (hperm.map _).nodup_iff.mp h
    rw [filter_rule_run h he, filter_rule_run h' (hperm.mem_iff.mp he)]
  · have hne : ∀ e ∈ set, e.check.rule.name ≠ name := fun e he heq => hname ⟨e, he, heq⟩
    rw [filter_rule_run_of_forall_ne hne,
      filter_rule_run_of_forall_ne fun e he => hne e (hperm.mem_iff.mpr he)]

end RuleSet

end CSharpStyle
