import CSharpStyle.Analysis.Run
import Mathlib.Data.List.Forall2

/-!
# Findings that agree

A cache keeps what was found in a file under its path, and paths with the same components are one. What is taken from
the cache can therefore name a file as an earlier run wrote it. Findings agree if they differ in nothing else.

* `Path.same_iff_order_eq`: paths are the same if the order of paths does not tell them apart.
* `FileAnalyzer.report_file`: the path of a file is copied into its report and decides nothing.
* `forall₂_sortBy`: lists that agree item by item do so when they are sorted.
* `Report.Agrees.exitCode_eq`: reports that agree lead to the same exit code.
-/

namespace CSharpStyle

/-! ### Paths -/

namespace PathComponent

theorem eq_of_order_eq {p q : PathComponent} (h : p.order q = .eq) : p = q := by
  cases p <;> cases q <;> first
    | rfl
    | exact congrArg name (Std.LawfulEqOrd.eq_of_compare h)
    | exact absurd h (by decide)
    | exact absurd (Std.LawfulEqOrd.eq_of_compare h) (by simp [rank])

theorem order_self (p : PathComponent) : p.order p = .eq := by
  cases p <;> first | rfl | exact Std.ReflOrd.compare_self

end PathComponent

namespace Path

theorem compareComponents_eq_iff {ps qs : List PathComponent} : compareComponents ps qs = .eq ↔ ps = qs := by
  induction ps generalizing qs with
  | nil => cases qs <;> simp [compareComponents]
  | cons p ps ih =>
    cases qs with
    | nil => simp [compareComponents]
    | cons q qs =>
      rw [compareComponents, Ordering.then_eq_eq, ih, List.cons.injEq]
      refine and_congr_left fun _ => ⟨PathComponent.eq_of_order_eq, ?_⟩
      rintro rfl
      exact p.order_self

variable {p q r p' q' : Path}

theorem same_iff : p.same q ↔ p.components = q.components := beq_iff_eq

/-- The order of paths is the order of their components. -/
theorem same_iff_order_eq : p.same q ↔ p.order q = .eq := by
  rw [same_iff, order, compareComponents_eq_iff]

theorem same_self (p : Path) : p.same p := same_iff.mpr rfl

theorem same_trans (h : p.same q) (h' : q.same r) : p.same r := same_iff.mpr ((same_iff.mp h).trans (same_iff.mp h'))

theorem order_congr (hp : p.same p') (hq : q.same q') : p.order q = p'.order q' := by
  rw [order, order, same_iff.mp hp, same_iff.mp hq]

end Path

/-! ### Findings -/

/-- The violations differ at most in the way the path of the file is written. -/
structure Violation.Agrees (v w : Violation) : Prop where
  file : v.file.same w.file
  rest : { v with file := w.file } = w

/-- The diagnostics differ at most in the way the path of the file is written. -/
structure Diagnostic.Agrees (d e : Diagnostic) : Prop where
  file : d.file.same e.file
  rest : { d with file := e.file } = e

structure FileReport.Agrees (r s : FileReport) : Prop where
  violations : List.Forall₂ Violation.Agrees r.violations s.violations
  diagnostics : List.Forall₂ Diagnostic.Agrees r.diagnostics s.diagnostics

/-- The reports of two runs agree in all they say. -/
structure Report.Agrees (r s : Report) : Prop where
  violations : List.Forall₂ Violation.Agrees r.violations s.violations
  diagnostics : List.Forall₂ Diagnostic.Agrees r.diagnostics s.diagnostics
  counts : r.counts = s.counts
  files : r.files = s.files
  isCancelled : r.isCancelled = s.isCancelled
  fingerprint : r.fingerprint = s.fingerprint

namespace Violation

theorem Agrees.refl (v : Violation) : v.Agrees v := ⟨v.file.same_self, rfl⟩

theorem Agrees.order_eq {v w v' w' : Violation} (hv : v.Agrees v') (hw : w.Agrees w') : v.order w = v'.order w' := by
  rw [← hv.rest, ← hw.rest, order, order, Path.order_congr hv.file hw.file]

theorem Agrees.severity_eq {v w : Violation} (h : v.Agrees w) : v.severity = w.severity := by rw [← h.rest]

theorem agrees_of_file (v : Violation) {p q : Path} (h : p.same q) :
    Agrees { v with file := p } { v with file := q } := ⟨h, rfl⟩

end Violation

namespace Diagnostic

theorem Agrees.refl (d : Diagnostic) : d.Agrees d := ⟨d.file.same_self, rfl⟩

theorem Agrees.order_eq {d e d' e' : Diagnostic} (hd : d.Agrees d') (he : e.Agrees e') : d.order e = d'.order e' := by
  rw [← hd.rest, ← he.rest, order, order, Path.order_congr hd.file he.file]

theorem Agrees.kind_eq {d e : Diagnostic} (h : d.Agrees e) : d.kind = e.kind := by rw [← h.rest]

theorem agrees_of_file (d : Diagnostic) {p q : Path} (h : p.same q) :
    Agrees { d with file := p } { d with file := q } := ⟨h, rfl⟩

end Diagnostic

/-- If an order does not tell apart what agrees, then lists that agree item by item do so when they are sorted. -/
theorem forall₂_sortBy {α : Type} {R : α → α → Prop} (order : α → α → Ordering)
    (horder : ∀ {a b a' b' : α}, R a a' → R b b' → order a b = order a' b') {as bs : List α}
    (h : List.Forall₂ R as bs) : List.Forall₂ R (sortBy order as) (sortBy order bs) := by
  -- Both lists are sorted as the pairs of their items are.
  have hpairs : ∀ p ∈ as.zip bs, R p.1 p.2 := fun p hp => List.forall₂_zip h hp
  have hfirst : as = (as.zip bs).map Prod.fst := (List.map_fst_zip (Nat.le_of_eq h.length_eq)).symm
  have hsecond : bs = (as.zip bs).map Prod.snd := (List.map_snd_zip (Nat.le_of_eq h.length_eq.symm)).symm
  generalize as.zip bs = pairs at hpairs hfirst hsecond
  have hsort : sortBy order bs = (pairs.mergeSort fun p q => order p.1 q.1 != .gt).map Prod.snd := by
    rw [hsecond, sortBy]
    exact (List.map_mergeSort fun p hp q hq => by rw [horder (hpairs p hp) (hpairs q hq)]).symm
  have hsort' : sortBy order as = (pairs.mergeSort fun p q => order p.1 q.1 != .gt).map Prod.fst := by
    rw [hfirst, sortBy]
    exact (List.map_mergeSort (f := Prod.fst) fun _ _ _ _ => rfl).symm
  rw [hsort, hsort', List.forall₂_map_left_iff, List.forall₂_map_right_iff, List.forall₂_same]
  exact fun p hp => hpairs p (List.mem_mergeSort.mp hp)

theorem FileReport.Agrees.refl (r : FileReport) : r.Agrees r where
  violations := List.forall₂_same.mpr fun v _ => .refl v
  diagnostics := List.forall₂_same.mpr fun d _ => .refl d

namespace Report

variable {r s : Report}

theorem Agrees.refl (r : Report) : r.Agrees r where
  violations := List.forall₂_same.mpr fun v _ => .refl v
  diagnostics := List.forall₂_same.mpr fun d _ => .refl d
  counts := rfl
  files := rfl
  isCancelled := rfl
  fingerprint := rfl

theorem Agrees.addFile (h : r.Agrees s) {f g : FileReport} (hfile : f.Agrees g) :
    (r.addFile f).Agrees (s.addFile g) where
  violations := List.rel_append h.violations hfile.violations
  diagnostics := List.rel_append h.diagnostics hfile.diagnostics
  counts := by
    have hfold {vs ws : List Violation} (hvs : List.Forall₂ Violation.Agrees vs ws) (c : SeverityCounts) :
        vs.foldl (fun c v => c.count v.severity) c = ws.foldl (fun c v => c.count v.severity) c := by
      induction hvs generalizing c with
      | nil => rfl
      | cons hv _ ih => rw [List.foldl_cons, List.foldl_cons, hv.severity_eq, ih]
    simp only [Report.addFile, h.counts, hfold hfile.violations]
  files := h.files
  isCancelled := h.isCancelled
  fingerprint := h.fingerprint

theorem Agrees.addFiles (h : r.Agrees s) {fs gs : List FileReport} (hfiles : List.Forall₂ FileReport.Agrees fs gs) :
    (fs.foldl Report.addFile r).Agrees (gs.foldl Report.addFile s) := by
  induction hfiles generalizing r s with
  | nil => exact h
  | cons hfile _ ih => exact ih (h.addFile hfile)

theorem Agrees.sorted (h : r.Agrees s) : r.sorted.Agrees s.sorted where
  violations := forall₂_sortBy Violation.order Violation.Agrees.order_eq h.violations
  diagnostics := forall₂_sortBy Diagnostic.order Diagnostic.Agrees.order_eq h.diagnostics
  counts := h.counts
  files := h.files
  isCancelled := h.isCancelled
  fingerprint := h.fingerprint

theorem Agrees.hasKind_eq (h : r.Agrees s) (kind : DiagnosticKind) : r.hasKind kind = s.hasKind kind := by
  have hany {ds es : List Diagnostic} (hds : List.Forall₂ Diagnostic.Agrees ds es) :
      ds.any (·.kind = kind) = es.any (·.kind = kind) := by
    induction hds with
    | nil => rfl
    | cons hd _ ih => rw [List.any_cons, List.any_cons, hd.kind_eq, ih]
  exact hany h.diagnostics

theorem Agrees.exitCode_eq (h : r.Agrees s) (threshold : Severity) : r.exitCode threshold = s.exitCode threshold := by
  rw [exitCode, exitCode, h.hasKind_eq, h.hasKind_eq, h.hasKind_eq, hasViolationsAt, hasViolationsAt, h.counts]

end Report

/-! ### The path of an analyzed file -/

/-- The violations and diagnostics with another path. -/
def FileReport.withFile (r : FileReport) (file : Path) : FileReport :=
  ⟨r.violations.map ({ · with file }), r.diagnostics.map ({ · with file })⟩

theorem FileReport.agrees_withFile (r : FileReport) {p q : Path} (h : p.same q) :
    (r.withFile p).Agrees (r.withFile q) where
  violations := by
    rw [withFile, withFile, List.forall₂_map_left_iff, List.forall₂_map_right_iff, List.forall₂_same]
    exact fun v _ => v.agrees_of_file h
  diagnostics := by
    rw [withFile, withFile, List.forall₂_map_left_iff, List.forall₂_map_right_iff, List.forall₂_same]
    exact fun d _ => d.agrees_of_file h

theorem Check.run_file (check : Check) (s : Subject) (file : Path) :
    check.run { s with file } = (check.run s).map ({ · with file }) := by
  cases check <;>
    simp only [run, NamingRule.check, VarApparentType.check, ExplicitForeachType.check, UsingOutsideNamespace.check,
      ShortCircuit.check, OneStatementPerLine.check, OneDeclarationPerLine.check, List.map_map] <;>
    rfl

theorem RuleSet.run_file (set : RuleSet) (s : Subject) (file : Path) :
    set.run { s with file } = (set.run s).map ({ · with file }) := by
  simp only [run, List.map_flatMap, Check.run_file, List.map_map]
  rfl

/-- The path of a file is copied into its report and decides nothing. -/
theorem FileAnalyzer.report_file (a : FileAnalyzer) (p q : Path) (source : String) :
    a.report q source = (a.report p source).withFile q := by
  have hrun := a.rules.run_file (Subject.ofStream p source (TokenStream.ofSource source)
    ((unit? (TokenStream.ofSource source)).map (·.outline)) a.symbols) q
  simp only [report, FileReport.withFile, ← hrun, List.map_append, List.map_map]
  rfl

theorem FileAnalyzer.report_agrees (a : FileAnalyzer) {p q : Path} (h : p.same q) (source : String) :
    (a.report p source).Agrees (a.report q source) := by
  rw [a.report_file p p, a.report_file p q]
  exact FileReport.agrees_withFile _ h

end CSharpStyle
