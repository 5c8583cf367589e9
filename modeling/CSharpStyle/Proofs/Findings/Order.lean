import CSharpStyle.Finding.Basic
import Mathlib.Data.List.Sort

/-!
# Sorted findings

Violations are sorted by file, line, column, rule and message. The order does not look at severities, lines of context
and suggested fixes, so that a sorted list depends on the order in which violations of one rule were found, and on
nothing else.

* `sortBy_eq_of_filter`: lists that agree on each class of items that an order does not tell apart are sorted alike.
* `sortBy_perm`: items that are all told apart are sorted alike in whatever order they come.
* `eq_of_pairwise_lt`: a set can be listed in strictly increasing order in one way only.
* `sortBy_eq_self_iff`: sorting leaves a list as it is if this is in order, and otherwise does not.
* `sortBy_filter`: sorting keeps the items of any kind in the order in which they would be sorted alone.
* `Violation.instTransCmpOrder`, `Diagnostic.instTransCmpOrder`: the orders are transitive.
* `Violation.rule_of_order_eq`: only violations of one rule are not told apart.
-/

namespace CSharpStyle

/-! ### Sorting by an order -/

section Sorting

variable {α : Type} {order : α → α → Ordering} [Std.TransCmp order]

omit [Std.TransCmp order] in
private theorem sortBy_eq_mergeSort (items : List α) :
    sortBy order items = items.mergeSort fun a b => (order a b).isLE := by
  rw [sortBy]
  congr 1
  funext a b
  cases order a b <;> rfl

private theorem isLE_total (a b : α) : ((order a b).isLE || (order b a).isLE) = true := by
  have hswap : order b a = (order a b).swap := Std.OrientedCmp.eq_swap
  rw [hswap]
  cases order a b <;> rfl

/-- A sorted list keeps the items that are not told apart from `a` in place. -/
theorem filter_sortBy (a : α) (items : List α) :
    (sortBy order items).filter (order a · == .eq) = items.filter (order a · == .eq) := by
  rw [sortBy_eq_mergeSort]
  have htied : (items.filter (order a · == .eq)).Pairwise fun b c => (order b c).isLE = true := by
    refine List.pairwise_of_forall_mem_list fun b hb c hc => ?_
    have hab : order a b = .eq := eq_of_beq (List.mem_filter.mp hb).2
    have hac : order a c = .eq := eq_of_beq (List.mem_filter.mp hc).2
    rw [← Std.TransCmp.congr_left hab, hac]
    rfl
  have hsublist : (items.filter (order a · == .eq)).Sublist (items.mergeSort fun a b => (order a b).isLE) :=
    List.sublist_mergeSort (fun _ _ _ => Std.TransCmp.isLE_trans) isLE_total htied List.filter_sublist
  have hfiltered := hsublist.filter (order a · == .eq)
  rw [List.filter_filter] at hfiltered
  simp only [Bool.and_self] at hfiltered
  refine (hfiltered.eq_of_length ?_).symm
  exact ((List.mergeSort_perm items _).filter _).length_eq.symm

private theorem tied_self (a : α) : (order a a == .eq) = true := beq_iff_eq.mpr Std.ReflCmp.compare_self

/-- The head of a sorted list does not come behind what another list begins with, if that is in it. -/
private theorem isLE_head {a b : α} {as bs : List α} (hbs : ∀ c ∈ bs, (order b c).isLE = true)
    (h : (a :: as).filter (order a · == .eq) = (b :: bs).filter (order a · == .eq)) : (order b a).isLE = true := by
  have hmem : a ∈ (b :: bs).filter (order a · == .eq) := by
    rw [← h]
    exact List.mem_filter.mpr ⟨List.mem_cons_self .., tied_self a⟩
  rcases List.mem_cons.mp (List.mem_filter.mp hmem).1 with heq | ha
  · rw [heq]
    exact Std.ReflCmp.isLE_rfl
  · exact hbs a ha

private theorem tied_of_isLE {a b : α} (hab : (order a b).isLE = true) (hba : (order b a).isLE = true) :
    order a b = .eq := by
  have hswap : order b a = (order a b).swap := Std.OrientedCmp.eq_swap
  rw [hswap] at hba
  cases hcmp : order a b with
  | eq => rfl
  | lt =>
    rw [hcmp] at hba
    cases hba
  | gt =>
    rw [hcmp] at hab
    cases hab

/-- Sorted lists are equal if they agree on each class of items that are not told apart. -/
private theorem eq_of_pairwise {as bs : List α} (has : as.Pairwise fun a b => (order a b).isLE = true)
    (hbs : bs.Pairwise fun a b => (order a b).isLE = true)
    (h : ∀ a, as.filter (order a · == .eq) = bs.filter (order a · == .eq)) : as = bs := by
  induction as generalizing bs with
  | nil =>
    cases bs with
    | nil => rfl
    | cons b bs =>
      have hb := h b
      rw [List.filter_cons, if_pos (tied_self b)] at hb
      cases hb
  | cons a as ih =>
    cases bs with
    | nil =>
      have ha := h a
      rw [List.filter_cons, if_pos (tied_self a)] at ha
      cases ha
    | cons b bs =>
      rw [List.pairwise_cons] at has hbs
      have htied : order a b = .eq := tied_of_isLE (isLE_head has.1 (h b).symm) (isLE_head hbs.1 (h a))
      have hhead : a = b := by
        have ha := h a
        rw [List.filter_cons, if_pos (tied_self a), List.filter_cons, if_pos (beq_iff_eq.mpr htied)] at ha
        exact (List.cons.inj ha).1
      subst hhead
      refine congrArg (a :: ·) (ih has.2 hbs.2 fun c => ?_)
      have hc := h c
      rw [List.filter_cons, List.filter_cons] at hc
      by_cases hca : order c a == .eq
      · rw [if_pos hca, if_pos hca] at hc
        exact (List.cons.inj hc).2
      · rwa [if_neg hca, if_neg hca] at hc

theorem pairwise_sortBy (items : List α) : (sortBy order items).Pairwise fun a b => (order a b).isLE = true := by
  rw [sortBy_eq_mergeSort]
  exact List.pairwise_mergeSort (fun _ _ _ => Std.TransCmp.isLE_trans) isLE_total items

theorem perm_sortBy (order : α → α → Ordering) (items : List α) : (sortBy order items).Perm items :=
  List.mergeSort_perm items _

/-- Items that are all told apart are sorted in one way only. -/
theorem pairwise_lt_sortBy {items : List α} (h : items.Pairwise fun a b => order a b ≠ .eq) :
    (sortBy order items).Pairwise fun a b => order a b = .lt := by
  have hdistinct : (sortBy order items).Pairwise fun a b => order a b ≠ .eq :=
    h.perm (perm_sortBy order items).symm fun hne heq => hne (Std.OrientedCmp.eq_comm.mp heq)
  refine (hdistinct.and (pairwise_sortBy items)).imp fun ⟨hne, hle⟩ => ?_
  rw [Ordering.isLE_iff_eq_lt_or_eq_eq] at hle
  exact hle.resolve_right hne

/-- Items that come in order are what they are sorted to. -/
theorem sortBy_eq_of_pairwise_lt {items sorted : List α} (hperm : items.Perm sorted)
    (hsorted : sorted.Pairwise fun a b => order a b = .lt) : sortBy order items = sorted := by
  have hdistinct : items.Pairwise fun a b => order a b ≠ .eq := by
    refine (hsorted.imp fun hlt heq => ?_).perm hperm.symm fun hne heq => hne (Std.OrientedCmp.eq_comm.mp heq)
    rw [hlt] at heq
    cases heq
  refine ((perm_sortBy order items).trans hperm).eq_of_pairwise (fun a b _ _ hlt hgt => ?_)
    (pairwise_lt_sortBy hdistinct) hsorted
  rw [Std.OrientedCmp.gt_of_lt hlt] at hgt
  cases hgt

/-- Lists in strictly increasing order are equal if the same items are in them. -/
theorem eq_of_pairwise_lt {as bs : List α} (has : as.Pairwise fun a b => order a b = .lt)
    (hbs : bs.Pairwise fun a b => order a b = .lt) (h : ∀ a, a ∈ as ↔ a ∈ bs) : as = bs := by
  have hne {a b : α} (hlt : order a b = .lt) : a ≠ b := by
    rintro rfl
    cases hlt.symm.trans Std.ReflCmp.compare_self
  have hperm : as.Perm bs := (List.perm_ext_iff_of_nodup (has.imp hne) (hbs.imp hne)).mpr h
  exact (sortBy_eq_of_pairwise_lt (.refl as) has).symm.trans (sortBy_eq_of_pairwise_lt hperm hbs)

theorem sortBy_perm {as bs : List α} (h : as.Pairwise fun a b => order a b ≠ .eq) (hperm : bs.Perm as) :
    sortBy order bs = sortBy order as :=
  sortBy_eq_of_pairwise_lt (hperm.trans (perm_sortBy order as).symm) (pairwise_lt_sortBy h)

/-- Lists that agree on each class of items that are not told apart are sorted alike. -/
theorem sortBy_eq_of_filter {as bs : List α}
    (h : ∀ a, as.filter (order a · == .eq) = bs.filter (order a · == .eq)) : sortBy order as = sortBy order bs := by
  refine eq_of_pairwise (pairwise_sortBy as) (pairwise_sortBy bs) fun a => ?_
  rw [filter_sortBy, filter_sortBy, h a]

/-- Items that are compared by values of theirs come in the order of the sorted values. -/
theorem sortBy_map {β : Type} (order : β → β → Ordering) (f : α → β) (items : List α) :
    sortBy order (items.map f) = (sortBy (fun a b => order (f a) (f b)) items).map f :=
  (List.map_mergeSort (f := f) (l := items) fun _ _ _ _ => rfl).symm

/-- Sorting changes nothing in a list that is in order, and in no other. -/
theorem sortBy_eq_self_iff {items : List α} :
    sortBy order items = items ↔ items.Pairwise fun a b => (order a b).isLE = true := by
  constructor
  · intro h
    rw [← h]
    exact pairwise_sortBy items
  · intro h
    exact eq_of_pairwise (pairwise_sortBy items) h fun a => filter_sortBy a items

/-- Some of the sorted items are what these items are when they are sorted alone. -/
theorem sortBy_filter (p : α → Bool) (items : List α) :
    (sortBy order items).filter p = sortBy order (items.filter p) := by
  refine eq_of_pairwise ((pairwise_sortBy items).filter p) (pairwise_sortBy _) fun a => ?_
  calc ((sortBy order items).filter p).filter (order a · == .eq)
    _ = ((sortBy order items).filter (order a · == .eq)).filter p := List.filter_comm ..
    _ = (items.filter (order a · == .eq)).filter p := by rw [filter_sortBy]
    _ = (items.filter p).filter (order a · == .eq) := List.filter_comm ..
    _ = (sortBy order (items.filter p)).filter (order a · == .eq) := (filter_sortBy a _).symm

end Sorting

/-! ### The orders of violations and diagnostics -/

/-- Components of one rank differ at most in their texts. -/
theorem PathComponent.order_eq : order = compareLex (compareOn rank) (compareOn text) := by
  funext p q
  cases p <;> cases q <;> rfl

instance PathComponent.instTransCmpOrder : Std.TransCmp PathComponent.order := by
  rw [PathComponent.order_eq]
  infer_instance

theorem Path.compareComponents_eq : compareComponents = List.compareLex PathComponent.order := by
  funext ps qs
  induction ps generalizing qs with
  | nil => cases qs <;> rfl
  | cons p ps ih =>
    cases qs with
    | nil => rfl
    | cons q qs =>
      rw [compareComponents, ih, List.compareLex_cons_cons]

/-- Items that are compared by a value of theirs are ordered as the values are. -/
theorem transCmp_on {α β : Type} (order : β → β → Ordering) [Std.TransCmp order] (f : α → β) :
    Std.TransCmp fun a b => order (f a) (f b) where
  eq_swap := Std.OrientedCmp.eq_swap
  isLE_trans := Std.TransCmp.isLE_trans

instance Path.instTransCmpCompareComponents : Std.TransCmp compareComponents := by
  rw [compareComponents_eq]
  infer_instance

instance Path.instTransCmpOrder : Std.TransCmp Path.order := transCmp_on compareComponents components

instance Violation.instTransCmpOrder : Std.TransCmp Violation.order := by
  have hfile : Std.TransCmp fun v w : Violation => v.file.order w.file := transCmp_on Path.order file
  exact inferInstanceAs (Std.TransCmp (compareLex (fun v w : Violation => v.file.order w.file)
    (compareLex (compareOn line) (compareLex (compareOn column) (compareLex (compareOn rule) (compareOn message))))))

instance Diagnostic.instTransCmpOrder : Std.TransCmp Diagnostic.order := by
  have hfile : Std.TransCmp fun d e : Diagnostic => d.file.order e.file := transCmp_on Path.order file
  exact inferInstanceAs (Std.TransCmp (compareLex (fun d e : Diagnostic => d.file.order e.file)
    (compareLex (compareOn fun d => d.line.getD 0) (compareLex (compareOn fun d => d.column.getD 0)
      (compareLex (compareOn fun d => d.kind.rank) (compareOn message))))))

/-- Violations that are not told apart are of one rule. -/
theorem Violation.rule_of_order_eq {v w : Violation} (h : v.order w = .eq) : v.rule = w.rule := by
  simp only [order, Ordering.then_eq_eq] at h
  exact Std.LawfulEqOrd.eq_of_compare h.2.2.2.1

end CSharpStyle
