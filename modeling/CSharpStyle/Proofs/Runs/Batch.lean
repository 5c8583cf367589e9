import CSharpStyle.Analysis.Run
import Mathlib.Data.List.Forall2

/-!
# Batches

A batch holds what its tasks contributed, in the order of the tasks, and says whether one of them contributed nothing.
How the tasks were divided into pieces cannot be seen in it.

* `Batch.items_ofTasks`, `Batch.isInterrupted_ofTasks`: a batch in terms of its tasks.
* `Division.run_eq`: pieces that are worked off independently make the batch of all tasks.
* `Batch.items_eq_of_whole`: work that is done completely or not at all.
* `Analyzer.found`: what is found in a file when the analysis is not interrupted.
-/

namespace CSharpStyle

theorem Batch.items_ofTasks {α : Type} (work : Interruption → Path → Option α) (tasks : List Task) :
    (ofTasks work tasks).items = tasks.filterMap (·.run work) := by
  have hfold (b : Batch α) : (tasks.foldl (fun b t => b.add (t.run work)) b).items =
      b.items ++ tasks.filterMap (·.run work) := by
    induction tasks generalizing b with
    | nil => exact (List.append_nil _).symm
    | cons t tasks ih =>
      rw [List.foldl_cons, ih]
      cases h : t.run work with
      | none => rw [List.filterMap_cons_none h]; rfl
      | some item => rw [List.filterMap_cons_some h, add, List.append_assoc, List.singleton_append]
  exact hfold {}

theorem Batch.isInterrupted_ofTasks {α : Type} (work : Interruption → Path → Option α) (tasks : List Task) :
    (ofTasks work tasks).isInterrupted = tasks.any fun t => (t.run work).isNone := by
  have hfold (b : Batch α) : (tasks.foldl (fun b t => b.add (t.run work)) b).isInterrupted =
      (b.isInterrupted || tasks.any fun t => (t.run work).isNone) := by
    induction tasks generalizing b with
    | nil => exact (Bool.or_false _).symm
    | cons t tasks ih =>
      rw [List.foldl_cons, ih, List.any_cons]
      cases h : t.run work with
      | none => simp [add]
      | some item => simp [add]
  exact hfold {}

theorem Batch.ofTasks_eq {α : Type} {work : Interruption → Path → Option α} {tasks : List Task} {found : Path → α}
    (h : ∀ t ∈ tasks, t.run work = some (found t.file)) :
    ofTasks work tasks = ⟨tasks.map fun t => found t.file, false⟩ := by
  have hfold (b : Batch α) : tasks.foldl (fun b t => b.add (t.run work)) b =
      ⟨b.items ++ tasks.map fun t => found t.file, b.isInterrupted⟩ := by
    induction tasks generalizing b with
    | nil => rw [List.map_nil, List.append_nil]; rfl
    | cons t tasks ih =>
      rw [List.foldl_cons, h t (List.mem_cons_self ..), ih fun t ht => h t (List.mem_cons_of_mem _ ht), add,
        List.append_assoc]
      rfl
  exact hfold {}

/-- When no task is interrupted, each contributes one item, in order. -/
theorem Batch.forall₂_ofTasks {α : Type} {R : α → Path → Prop} {work : Interruption → Path → Option α}
    {tasks : List Task} (hall : (ofTasks work tasks).isInterrupted = false)
    (hwork : ∀ t ∈ tasks, ∀ item, t.run work = some item → R item t.file) :
    List.Forall₂ R (ofTasks work tasks).items (tasks.map (·.file)) := by
  rw [isInterrupted_ofTasks] at hall
  rw [items_ofTasks]
  induction tasks with
  | nil => exact .nil
  | cons t tasks ih =>
    rw [List.any_cons, Bool.or_eq_false_iff] at hall
    cases hitem : t.run work with
    | none =>
      rw [hitem] at hall
      cases hall.1
    | some item =>
      rw [List.filterMap_cons_some hitem]
      exact .cons (hwork t (List.mem_cons_self ..) item hitem)
        (ih hall.2 fun t ht => hwork t (List.mem_cons_of_mem _ ht))

/-! ### Divisions -/

theorem Batch.ofTasks_append {α : Type} (work : Interruption → Path → Option α) (first second : List Task) :
    ofTasks work (first ++ second) = (ofTasks work first).merge (ofTasks work second) := by
  have hitems : (ofTasks work (first ++ second)).items = (ofTasks work first).items ++ (ofTasks work second).items := by
    simp only [items_ofTasks, List.filterMap_append]
  have hinterrupted : (ofTasks work (first ++ second)).isInterrupted =
      ((ofTasks work first).isInterrupted || (ofTasks work second).isInterrupted) := by
    simp only [isInterrupted_ofTasks, List.any_append]
  rw [merge, ← hitems, ← hinterrupted]

/-- Pieces that are worked off independently make the batch of all tasks, one after the other. -/
theorem Division.run_eq {α : Type} (work : Interruption → Path → Option α) (d : Division) :
    d.run work = .ofTasks work d.tasks := by
  induction d with
  | piece tasks => rfl
  | both first second ihFirst ihSecond => rw [run, tasks, ihFirst, ihSecond, Batch.ofTasks_append]

/-! ### Work that is done completely or not at all -/

namespace Task

variable {α : Type} {work : Interruption → Path → Option α}

def contributes (work : Interruption → Path → Option α) (t : Task) : Bool := (t.run work).isSome

theorem exists_of_contributes {t : Task} (h : t.contributes work) :
    ∃ interrupted item, t.run work = some item ∧ work interrupted t.file = some item := by
  obtain ⟨item, hitem⟩ := Option.isSome_iff_exists.mp h
  rw [run] at hitem
  exact ⟨_, item, hitem, (Option.ite_none_left_eq_some.mp hitem).2⟩

end Task

/-- If what a file contributes does not depend on the interruptions, a batch has the contributions of some of its
tasks. -/
theorem Batch.items_eq_of_whole {α : Type} {work : Interruption → Path → Option α} {whole : Path → α}
    (hwork : ∀ interrupted file item, work interrupted file = some item → item = whole file) (tasks : List Task) :
    (ofTasks work tasks).items = (tasks.filter (·.contributes work)).map fun t => whole t.file := by
  rw [items_ofTasks]
  induction tasks with
  | nil => rfl
  | cons t tasks ih =>
    cases h : t.run work with
    | none =>
      have hcontributes : ¬t.contributes work := by simp [Task.contributes, h]
      rw [List.filterMap_cons_none h, List.filter_cons_of_neg hcontributes, ih]
    | some item =>
      have hcontributes : t.contributes work := by simp [Task.contributes, h]
      obtain ⟨interrupted, item', hrun, hitem'⟩ := Task.exists_of_contributes hcontributes
      cases h.symm.trans hrun
      rw [List.filterMap_cons_some h, List.filter_cons_of_pos hcontributes, List.map_cons, ih, hwork _ _ _ hitem']

namespace Analyzer

theorem report_of_analyzeSource {a : Analyzer} {interrupted : Interruption} {file : Path} {source : String}
    {report : FileReport}
    (h : a.analyzeSource interrupted file source = some report) : report = a.files.report file source := by
  rw [analyzeSource, FileAnalyzer.analyze] at h
  exact (Option.some.inj (Option.ite_none_left_eq_some.mp h).2).symm

/-- What is found in a file when the analysis is not interrupted. -/
def found (a : Analyzer) (fs : FileSystem) (file : Path) : FileReport :=
  match fs.readSource file with
  | .ok source => a.files.report file source
  | .error report => report

theorem analyzeFile_never (a : Analyzer) (fs : FileSystem) (file : Path) :
    a.analyzeFile fs .never file = some (a.found fs file) := by
  rw [analyzeFile, found]
  cases fs.readSource file <;> rfl

/-- Nothing is said of a file that is analyzed in part. -/
theorem eq_found_of_analyzeFile (a : Analyzer) (fs : FileSystem) (interrupted : Interruption) (file : Path)
    (report : FileReport) (h : a.analyzeFile fs interrupted file = some report) : report = a.found fs file := by
  rw [analyzeFile] at h
  rw [found]
  cases hsource : fs.readSource file with
  | error unreadable =>
    rw [hsource] at h
    exact (Option.some.inj h).symm
  | ok source =>
    rw [hsource] at h
    exact report_of_analyzeSource h

end Analyzer

end CSharpStyle
