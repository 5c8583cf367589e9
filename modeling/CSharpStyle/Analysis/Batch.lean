import CSharpStyle.Analysis.FileAnalysis

/-!
# Batches

The files of a run are worked off in pieces, each into a batch of its own, and the batches are put together in
the order of the pieces. A file contributes to its batch completely or, when the run is interrupted, not at all.
-/

namespace CSharpStyle

/-- What the files of a piece contributed. -/
structure Batch (α : Type) where
  items : List α := []
  /-- Some file contributed nothing. -/
  isInterrupted : Bool := false
  deriving DecidableEq, Repr, Inhabited

namespace Batch

variable {α : Type}

def merge (a b : Batch α) : Batch α := ⟨a.items ++ b.items, a.isInterrupted || b.isInterrupted⟩

/-- Adds what one file contributed. -/
def add (b : Batch α) : Option α → Batch α
  | some item => { b with items := b.items ++ [item] }
  | none => { b with isInterrupted := true }

end Batch

/-- A file that is to be analyzed, and what is answered when it is asked whether the run has been
interrupted. -/
structure Task where
  file : Path
  interrupted : Interruption

namespace Task

/-- Asks before the file is touched, and lets `work` ask again. -/
def run {α : Type} (work : Interruption → Path → Option α) (t : Task) : Option α :=
  if t.interrupted 0 then none else work (fun question => t.interrupted (question + 1)) t.file

end Task

/-- The batch of some tasks, one after the other. -/
def Batch.ofTasks {α : Type} (work : Interruption → Path → Option α) (tasks : List Task) : Batch α :=
  tasks.foldl (fun b t => b.add (t.run work)) {}

/-- A division of tasks into pieces that are worked off independently. -/
inductive Division
  | piece (tasks : List Task)
  | both (first second : Division)

namespace Division

def tasks : Division → List Task
  | piece tasks => tasks
  | both first second => first.tasks ++ second.tasks

/-- The batches of all pieces put together. -/
def run {α : Type} (work : Interruption → Path → Option α) : Division → Batch α
  | piece tasks => .ofTasks work tasks
  | both first second => (first.run work).merge (second.run work)

end Division

end CSharpStyle
