import CSharpStyle.Pattern.Regex
import Mathlib.Data.List.Basic

/-!
# What regular expressions match

The positions that `Regex.advance` computes are those of a relation that says nothing of how they are found:
`Regex.Spans text r i j` if the part of the text between `i` and `j` is an occurrence of `r`. The bound on the
number of repetitions that are tried loses nothing, as repetitions that read nothing can be left out.

* `Regex.mem_advance_iff`: the computed ends are the ends of occurrences.
* `Regex.search_iff`: a text is matched if it has an occurrence.
-/

namespace CSharpStyle.Regex

/-- A relation used `n` times in a row. -/
def Repeats (R : Nat → Nat → Prop) : Nat → Nat → Nat → Prop
  | 0, i, j => i = j
  | n + 1, i, k => ∃ j, R i j ∧ Repeats R n j k

/-- The part of the text between two positions is an occurrence of an expression. -/
def Spans (text : Array Char) : Regex → Nat → Nat → Prop
  | empty, i, j => i = j
  | set s, i, j => j = i + 1 ∧ ∃ c ∈ text[i]?, s.contains c
  | anchor a, i, j => i = j ∧ a.holds text i
  | seq r s, i, k => ∃ j, r.Spans text i j ∧ s.Spans text j k
  | alt r s, i, j => r.Spans text i j ∨ s.Spans text i j
  | repeated r least most, i, j =>
    ∃ n, least ≤ n ∧ (∀ bound ∈ most, n ≤ max least bound) ∧ Repeats (r.Spans text) n i j

/-! ### Repetitions -/

section

variable {R : Nat → Nat → Prop}

theorem repeats_add_iff {m n i k : Nat} :
    Repeats R (m + n) i k ↔ ∃ j, Repeats R m i j ∧ Repeats R n j k := by
  induction m generalizing i with
  | zero => rw [Nat.zero_add]; exact ⟨fun h => ⟨i, rfl, h⟩, fun ⟨_, hi, h⟩ => hi ▸ h⟩
  | succ m ih =>
    rw [Nat.succ_add]
    constructor
    · rintro ⟨i', hi, h⟩
      obtain ⟨j, hj, h⟩ := ih.mp h
      exact ⟨j, ⟨i', hi, hj⟩, h⟩
    · rintro ⟨j, ⟨i', hi, hj⟩, h⟩
      exact ⟨i', hi, ih.mpr ⟨j, hj, h⟩⟩

/-- Steps that stay where they are can be left out, so that no more are needed than positions are passed. -/
theorem Repeats.exists_add_le (hforward : ∀ i j, R i j → i ≤ j) {n i j : Nat} (h : Repeats R n i j) :
    ∃ m, i + m ≤ j ∧ Repeats R m i j := by
  induction n generalizing i with
  | zero => exact ⟨0, Nat.le_of_eq h, h⟩
  | succ n ih =>
    obtain ⟨i', hstep, hrest⟩ := h
    obtain ⟨m, hm, hsteps⟩ := ih hrest
    rcases Nat.eq_or_lt_of_le (hforward i i' hstep) with rfl | hlt
    · exact ⟨m, hm, hsteps⟩
    · exact ⟨m + 1, by omega, i', hstep, hsteps⟩

/-- A function on lists of positions computes where a relation leads. -/
def Computes (f : List Nat → List Nat) (R : Nat → Nat → Prop) : Prop :=
  ∀ positions j, j ∈ f positions ↔ ∃ i ∈ positions, R i j

variable {f : List Nat → List Nat}

theorem Computes.repeatMap (h : Computes f R) (n : Nat) : Computes (repeatMap f n) (Repeats R n) := by
  induction n with
  | zero => exact fun positions j => ⟨fun hj => ⟨j, hj, rfl⟩, fun ⟨i, hi, hij⟩ => hij ▸ hi⟩
  | succ n ih =>
    intro positions j
    -- Positions that a step maps to themselves stay what they are.
    have hstep : Regex.repeatMap f (n + 1) positions = Regex.repeatMap f n (f positions) := by
      rw [Regex.repeatMap]
      split
      · rename_i hsame
        have hsame : f positions = positions := eq_of_beq hsame
        rw [hsame]
        clear ih
        induction n with
        | zero => rfl
        | succ n _ => rw [Regex.repeatMap, if_pos (beq_iff_eq.mpr hsame)]
      · rfl
    rw [hstep, ih]
    constructor
    · rintro ⟨k, hk, hrest⟩
      obtain ⟨i, hi, hik⟩ := (h positions k).mp hk
      exact ⟨i, hi, k, hik, hrest⟩
    · rintro ⟨i, hi, k, hik, hrest⟩
      exact ⟨k, (h positions k).mpr ⟨i, hi, hik⟩, hrest⟩

theorem mem_merge {positions more : List Nat} {j : Nat} : j ∈ merge positions more ↔ j ∈ positions ∨ j ∈ more := by
  rw [merge, List.mem_append, List.mem_filter]
  by_cases hj : j ∈ positions <;> simp [hj]

theorem length_merge_eq_iff {positions more : List Nat} :
    (merge positions more).length = positions.length ↔ ∀ j ∈ more, j ∈ positions := by
  rw [merge, List.length_append, Nat.add_eq_left, List.length_eq_zero_iff, List.filter_eq_nil_iff]
  exact forall₂_congr fun j _ => by simp

theorem Computes.closure (h : Computes f R) (n : Nat) :
    Computes (closure f n) fun i j => ∃ m ≤ n, Repeats R m i j := by
  induction n with
  | zero =>
    refine fun positions j => ⟨fun hj => ⟨j, hj, 0, Nat.le_refl 0, rfl⟩, ?_⟩
    rintro ⟨i, hi, m, hm, hsteps⟩
    obtain rfl := Nat.le_zero.mp hm
    exact hsteps ▸ hi
  | succ n ih =>
    intro positions j
    rw [Regex.closure]
    simp only [beq_iff_eq, length_merge_eq_iff]
    split
    · -- Nothing new was reached, so nothing new can be reached in any number of steps.
      rename_i hclosed
      refine ⟨fun hj => ⟨j, hj, 0, Nat.zero_le _, rfl⟩, ?_⟩
      rintro ⟨i, hi, m, -, hsteps⟩
      induction m generalizing i with
      | zero => exact hsteps ▸ hi
      | succ m ihm =>
        obtain ⟨k, hik, hrest⟩ := hsteps
        exact ihm k (hclosed k ((h positions k).mpr ⟨i, hi, hik⟩)) hrest
    · rw [ih]
      constructor
      · rintro ⟨k, hk, m, hm, hrest⟩
        rcases mem_merge.mp hk with hk | hk
        · exact ⟨k, hk, m, Nat.le_succ_of_le hm, hrest⟩
        · obtain ⟨i, hi, hik⟩ := (h positions k).mp hk
          exact ⟨i, hi, m + 1, Nat.succ_le_succ hm, k, hik, hrest⟩
      · rintro ⟨i, hi, m, hm, hsteps⟩
        cases m with
        | zero => exact ⟨i, mem_merge.mpr (.inl hi), 0, Nat.zero_le n, hsteps⟩
        | succ m =>
          obtain ⟨k, hik, hrest⟩ := hsteps
          exact ⟨k, mem_merge.mpr (.inr ((h positions k).mpr ⟨i, hi, hik⟩)), m, Nat.le_of_succ_le_succ hm, hrest⟩

end

/-! ### Expressions -/

variable {text : Array Char}

/-- An occurrence ends behind its beginning or there, and inside the text unless it is empty. -/
theorem Spans.bounds {r : Regex} {i j : Nat} (h : r.Spans text i j) : i ≤ j ∧ (i < j → j ≤ text.size) := by
  induction r generalizing i j with
  | empty => exact ⟨Nat.le_of_eq h, fun hlt => absurd h (Nat.ne_of_lt hlt)⟩
  | set s =>
    obtain ⟨rfl, c, hc, -⟩ := h
    obtain ⟨hi, -⟩ := Array.getElem?_eq_some_iff.mp hc
    exact ⟨Nat.le_succ i, fun _ => hi⟩
  | anchor a => exact ⟨Nat.le_of_eq h.1, fun hlt => absurd h.1 (Nat.ne_of_lt hlt)⟩
  | seq r s ihr ihs =>
    obtain ⟨k, hr, hs⟩ := h
    have hr := ihr hr
    have hs := ihs hs
    exact ⟨Nat.le_trans hr.1 hs.1, fun hlt => by omega⟩
  | alt r s ihr ihs => exact h.elim ihr ihs
  | repeated r least most ih =>
    obtain ⟨n, -, -, hsteps⟩ := h
    clear least most
    induction n generalizing i with
    | zero => exact ⟨Nat.le_of_eq hsteps, fun hlt => absurd hsteps (Nat.ne_of_lt hlt)⟩
    | succ n ihn =>
      obtain ⟨k, hstep, hrest⟩ := hsteps
      have hstep := ih hstep
      have hrest := ihn hrest
      exact ⟨Nat.le_trans hstep.1 hrest.1, fun hlt => by omega⟩

/-- A repetition without bound has no occurrences but those with as many parts as the text has characters. -/
theorem exists_repeats_le {r : Regex} {i j : Nat} :
    (∃ n ≤ text.size + 1, Repeats (r.Spans text) n i j) ↔ ∃ n, Repeats (r.Spans text) n i j := by
  refine ⟨fun ⟨n, _, h⟩ => ⟨n, h⟩, fun ⟨n, h⟩ => ?_⟩
  obtain ⟨m, hm, hsteps⟩ := h.exists_add_le fun _ _ hstep => hstep.bounds.1
  have hbounds : (repeated r n none).Spans text i j := ⟨n, Nat.le_refl n, by simp, h⟩
  have := hbounds.bounds
  exact ⟨m, by omega, hsteps⟩

/-- The computed positions are the ends of the occurrences that begin at the given positions. -/
theorem computes_advance (text : Array Char) (r : Regex) : Computes (r.advance text) (r.Spans text) := by
  induction r with
  | empty => exact fun positions j => ⟨fun hj => ⟨j, hj, rfl⟩, fun ⟨i, hi, hij⟩ => hij ▸ hi⟩
  | set s =>
    intro positions j
    rw [advance, List.mem_filterMap]
    refine exists_congr fun i => and_congr_right fun _ => ?_
    rw [Option.ite_none_right_eq_some, Option.any_eq_true, Option.some_inj]
    exact and_comm.trans (and_congr_left' eq_comm)
  | anchor a =>
    intro positions j
    rw [advance, List.mem_filter]
    refine ⟨fun ⟨hj, ha⟩ => ⟨j, hj, rfl, ha⟩, ?_⟩
    rintro ⟨i, hi, rfl, ha⟩
    exact ⟨hi, ha⟩
  | seq r s ihr ihs =>
    intro positions k
    rw [advance, ihs]
    constructor
    · rintro ⟨j, hj, hs⟩
      obtain ⟨i, hi, hr⟩ := (ihr positions j).mp hj
      exact ⟨i, hi, j, hr, hs⟩
    · rintro ⟨i, hi, j, hr, hs⟩
      exact ⟨j, (ihr positions j).mpr ⟨i, hi, hr⟩, hs⟩
  | alt r s ihr ihs =>
    intro positions j
    rw [advance, mem_merge, ihr, ihs, ← exists_or]
    exact exists_congr fun i => and_or_left.symm
  | repeated r least most ih =>
    intro positions j
    have hleast := ih.repeatMap least positions
    -- The parts beyond the least number are those that the closure adds.
    have hparts (bound : Nat → Prop) :
        (∃ k ∈ repeatMap (r.advance text) least positions, ∃ m, bound m ∧ Repeats (r.Spans text) m k j) ↔
          ∃ i ∈ positions, ∃ n, least ≤ n ∧ bound (n - least) ∧ Repeats (r.Spans text) n i j := by
      constructor
      · rintro ⟨k, hk, m, hm, hrest⟩
        obtain ⟨i, hi, hsteps⟩ := (hleast k).mp hk
        refine ⟨i, hi, least + m, Nat.le_add_right .., ?_, repeats_add_iff.mpr ⟨k, hsteps, hrest⟩⟩
        rwa [Nat.add_sub_cancel_left]
      · rintro ⟨i, hi, n, hn, hbound, hsteps⟩
        rw [← Nat.add_sub_cancel' hn] at hsteps
        obtain ⟨k, hfirst, hrest⟩ := repeats_add_iff.mp hsteps
        exact ⟨k, (hleast k).mpr ⟨i, hi, hfirst⟩, n - least, hbound, hrest⟩
    cases most with
    | none =>
      refine (ih.closure (text.size + 1) _ j).trans ?_
      simp only [exists_repeats_le]
      simpa [Spans] using hparts fun _ => True
    | some bound =>
      refine (ih.closure (bound - least) _ j).trans ((hparts (· ≤ bound - least)).trans ?_)
      refine exists_congr fun i => and_congr_right fun _ => exists_congr fun n => and_congr_right fun hn => ?_
      refine and_congr_left' ?_
      simp only [Option.mem_some_iff, forall_eq']
      omega

theorem mem_advance_iff {r : Regex} {positions : List Nat} {j : Nat} :
    j ∈ r.advance text positions ↔ ∃ i ∈ positions, r.Spans text i j :=
  computes_advance text r positions j

/-- A text is matched if and only if an occurrence begins at one of its positions. -/
theorem search_iff {r : Regex} {text : String} :
    r.search text ↔ ∃ i j, i ≤ text.toList.length ∧ r.Spans text.toList.toArray i j := by
  rw [search, Bool.not_eq_true', List.isEmpty_eq_false_iff_exists_mem]
  simp only [mem_advance_iff, List.mem_range, List.size_toArray, Nat.lt_succ_iff]
  exact ⟨fun ⟨j, i, hi, h⟩ => ⟨i, j, hi, h⟩, fun ⟨i, j, hi, h⟩ => ⟨j, i, hi, h⟩⟩

end CSharpStyle.Regex
