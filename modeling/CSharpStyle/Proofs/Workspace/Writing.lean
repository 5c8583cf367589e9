import CSharpStyle.Proofs.Text.Utf8
import CSharpStyle.Workspace.FileSystem
import Mathlib.Data.List.Basic

/-!
# What is written is read back

A path leads through directories only, and these stay what they are when a file is written.

* `resolve_of_directories`: a path leads to the same place as long as all directories stay.
* `lookup?_write`: a file holds what was written last.
* `readText_eq_ok_iff`: texts are read from the bytes that encode them.
-/

namespace CSharpStyle.FileSystem

variable {fs fs' : FileSystem} {p : Path}

theorem lookup_filter_ne {α β : Type} [BEq α] [LawfulBEq α] {a b : α} (h : b ≠ a) (entries : List (α × β)) :
    (entries.filter (·.1 != a)).lookup b = entries.lookup b := by
  induction entries with
  | nil => rfl
  | cons entry entries ih =>
    by_cases ha : entry.1 = a
    · rw [List.filter_cons_of_neg (by simp [ha]), ih, List.lookup_cons, beq_eq_false_iff_ne.mpr (ha ▸ h)]
    · rw [List.filter_cons_of_pos (by simp [ha]), List.lookup_cons, List.lookup_cons, ih]

theorem node?_put_of_ne {place other : List String} (h : other ≠ place) (node : FileNode) :
    (fs.put place node).node? other = fs.node? other := by
  unfold node?
  split
  · rfl
  · rw [put, List.lookup_cons, beq_eq_false_iff_ne.mpr h, lookup_filter_ne h]

theorem node?_put_self {place : List String} (h : place ≠ []) (node : FileNode) :
    (fs.put place node).node? place = some node := by
  rw [node?, if_neg (by simpa using h), put, List.lookup_cons, beq_self_eq_true]

/-- A step is taken from a directory only. -/
theorem step_of_directories (hdirectory : ∀ place, fs.node? place = some .directory → fs'.node? place = some .directory)
    {place next : List String} {piece : List Char} (h : fs.step place piece = .ok next) :
    fs'.step place piece = .ok next := by
  unfold step at h
  split at h
  · next hnode => rwa [step, hdirectory place hnode]
  · cases h
  · cases h

theorem foldlM_step_of_directories
    (hdirectory : ∀ place, fs.node? place = some .directory → fs'.node? place = some .directory)
    {pieces : List (List Char)} {start place : List String} (h : pieces.foldlM fs.step start = .ok place) :
    pieces.foldlM fs'.step start = .ok place := by
  induction pieces generalizing start with
  | nil => exact h
  | cons piece pieces ih =>
    rw [List.foldlM_cons] at h ⊢
    cases hstep : fs.step start piece with
    | error e =>
      rw [hstep] at h
      cases h
    | ok next =>
      rw [hstep] at h
      rw [step_of_directories hdirectory hstep]
      exact ih h

/-- A path leads to the same place as long as all directories stay. -/
theorem resolve_of_directories (hworking : fs'.workingDirectory = fs.workingDirectory)
    (hdirectory : ∀ place, fs.node? place = some .directory → fs'.node? place = some .directory)
    {place : List String} (h : fs.resolve p = .ok place) : fs'.resolve p = .ok place := by
  unfold resolve at h ⊢
  split at h
  · cases h
  · next hne =>
    rw [if_neg hne, hworking]
    exact foldlM_step_of_directories hdirectory h

/-- What is written takes the place that the path leads to, which is no directory. -/
theorem eq_put_of_write {bytes : List UInt8} (h : fs.write p bytes = .ok fs') :
    ∃ place, fs.resolve p = .ok place ∧ fs.node? place ≠ some .directory ∧ fs' = fs.put place (.file bytes) := by
  unfold write at h
  cases hplace : fs.resolve p with
  | error e =>
    rw [hplace] at h
    cases h
  | ok place =>
    rw [hplace] at h
    dsimp only [bind, Except.bind] at h
    split at h
    · cases h
    · next _ _ hnode =>
      cases h
      exact ⟨place, rfl, hnode, rfl⟩
    · cases h
    · cases h

/-- A file holds what was written last. -/
theorem lookup?_write {bytes : List UInt8} (h : fs.write p bytes = .ok fs') : fs'.lookup? p = some (.file bytes) := by
  obtain ⟨place, hplace, hnode, rfl⟩ := eq_put_of_write h
  have hne {other : List String} (hother : fs.node? other = some .directory) : other ≠ place := by
    rintro rfl
    exact hnode hother
  have hstays (other : List String) (hother : fs.node? other = some .directory) :
      (fs.put place (.file bytes)).node? other = some .directory :=
    (node?_put_of_ne (hne hother) _).trans hother
  have hworking : (fs.put place (.file bytes)).workingDirectory = fs.workingDirectory := rfl
  have hresolve := resolve_of_directories hworking hstays hplace
  rw [lookup?, hresolve]
  exact node?_put_self (Ne.symm (hne rfl)) _

/-- Texts are read from the bytes that encode them. -/
theorem readText_eq_ok_iff {text : String} :
    fs.readText p = .ok text ↔ ∃ bytes, fs.lookup? p = some (.file bytes) ∧ Utf8.decode? bytes = some text := by
  unfold readText read lookup?
  cases fs.resolve p with
  | error e => simp [bind, Except.bind]
  | ok place =>
    cases hnode : fs.node? place with
    | none => simp [bind, Except.bind, hnode]
    | some node =>
      cases node with
      | directory => simp [bind, Except.bind, hnode]
      | file bytes =>
        cases htext : Utf8.decode? bytes <;> simp [bind, Except.bind, hnode, htext]

end CSharpStyle.FileSystem
