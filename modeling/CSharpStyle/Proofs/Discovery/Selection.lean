import CSharpStyle.Proofs.Discovery.Walk
import CSharpStyle.Proofs.Findings.Independence
import CSharpStyle.Proofs.Workspace.Writing

/-!
# Paths of a run

A run is told some paths of files and directories. The files that these stand for are put together, sorted, rid of those
that come more than once, and cut to the number that is asked for. A file can be there in several ways, and written in
several ways, and only its components count. So the paths are a set: neither their order nor their number matters.

* `pairwise_dropRepeated`, `mem_dropRepeated`: a sorted list that is rid of repetitions is a sorted set.
* `FileSelection.components_merged`: a selection is made on the components of its files.
* `Analyzer.selectFiles_eq_ok_iff`: a selection is put together from what each path stands for.
* `PathFilter.IsReadable.exists_findFiles`, `Analyzer.exists_selectPath`: only ignore files that cannot be read make a
  selection fail.
* `Analyzer.selectFiles_set`: what the selection for some paths is like, and which other paths lead to it.
-/

namespace CSharpStyle

/-! ### Repetitions -/

section Repetitions

variable {α β : Type}

theorem dropFrom_map (equal : β → β → Bool) (f : α → β) (a : α) (items : List α) :
    dropRepeated.dropFrom equal (f a) (items.map f) =
      (dropRepeated.dropFrom (fun a b => equal (f a) (f b)) a items).map f := by
  induction items generalizing a with
  | nil => rfl
  | cons b items ih =>
    rw [List.map_cons, dropRepeated.dropFrom, dropRepeated.dropFrom, ih a, ih b]
    split <;> rfl

theorem dropRepeated_map (equal : β → β → Bool) (f : α → β) (items : List α) :
    dropRepeated equal (items.map f) = (dropRepeated (fun a b => equal (f a) (f b)) items).map f := by
  cases items with
  | nil => rfl
  | cons a items => exact congrArg (f a :: ·) (dropFrom_map equal f a items)

theorem dropFrom_sublist (equal : α → α → Bool) (a : α) (items : List α) :
    (dropRepeated.dropFrom equal a items).Sublist items := by
  induction items generalizing a with
  | nil => exact .slnil
  | cons b items ih =>
    rw [dropRepeated.dropFrom]
    split
    · exact (ih a).cons b
    · exact (ih b).cons_cons b

section Sorted

variable {equal : α → α → Bool} {order : α → α → Ordering} [Std.TransCmp order]

/-- Behind an item of a sorted list, only greater ones are kept. -/
theorem pairwise_dropFrom (hequal : ∀ a b, equal a b = true ↔ order a b = .eq) {a : α} {items : List α}
    (h : (a :: items).Pairwise fun a b => (order a b).isLE = true) :
    (a :: dropRepeated.dropFrom equal a items).Pairwise fun a b => order a b = .lt := by
  induction items generalizing a with
  | nil => exact List.pairwise_singleton _ _
  | cons b items ih =>
    obtain ⟨ha, hitems⟩ := List.pairwise_cons.mp h
    rw [dropRepeated.dropFrom]
    split
    · exact ih (h.sublist ((List.sublist_cons_self b items).cons_cons a))
    · next hne =>
      have hab : order a b = .lt :=
        (Ordering.isLE_iff_eq_lt_or_eq_eq.mp (ha b (List.mem_cons_self ..))).resolve_right (mt (hequal a b).mpr hne)
      have hb := ih hitems
      refine List.pairwise_cons.mpr ⟨fun c hc => ?_, hb⟩
      rcases List.mem_cons.mp hc with rfl | hc
      · exact hab
      · exact Std.TransCmp.lt_trans hab ((List.pairwise_cons.mp hb).1 c hc)

theorem pairwise_dropRepeated (hequal : ∀ a b, equal a b = true ↔ order a b = .eq) {items : List α}
    (h : items.Pairwise fun a b => (order a b).isLE = true) :
    (dropRepeated equal items).Pairwise fun a b => order a b = .lt := by
  cases items with
  | nil => exact .nil
  | cons a items => exact pairwise_dropFrom hequal h

end Sorted

variable [BEq α] [LawfulBEq α]

theorem mem_dropFrom (a c : α) (items : List α) : c ∈ a :: dropRepeated.dropFrom (· == ·) a items ↔ c ∈ a :: items := by
  refine ⟨fun h => ((dropFrom_sublist _ a items).cons_cons a).mem h, fun h => ?_⟩
  induction items generalizing a with
  | nil => exact h
  | cons b items ih =>
    rw [dropRepeated.dropFrom]
    rcases List.mem_cons.mp h with hfirst | hc
    · exact List.mem_cons.mpr (.inl hfirst)
    · split
      · next heq =>
        rw [eq_of_beq heq] at h ⊢
        exact ih b hc
      · exact List.mem_cons_of_mem a (ih b hc)

theorem mem_dropRepeated (c : α) (items : List α) : c ∈ dropRepeated (· == ·) items ↔ c ∈ items := by
  cases items with
  | nil => exact .rfl
  | cons a items => exact mem_dropFrom a c items

end Repetitions

/-! ### Parts of a selection -/

namespace FileSelection

/-- The first items, if their number is limited. -/
def limited {α : Type} (limit : Option Nat) (items : List α) : List α := limit.elim items items.take

theorem limited_sublist {α : Type} (limit : Option Nat) (items : List α) : (limited limit items).Sublist items := by
  cases limit with
  | none => exact .refl _
  | some n => exact List.take_sublist n items

theorem limited_map {α β : Type} (limit : Option Nat) (f : α → β) (items : List α) :
    (limited limit items).map f = limited limit (items.map f) := by
  cases limit with
  | none => rfl
  | some n => exact List.map_take

theorem length_limited {α : Type} {n : Nat} (items : List α) : (limited (some n) items).length ≤ n :=
  List.length_take_le n items

/-- One selection out of several. -/
def merged (limit : Option Nat) (parts : List FileSelection) : FileSelection where
  files := limited limit (dropRepeated Path.same (sortBy Path.order (parts.flatMap (·.files))))
  diagnostics := parts.flatMap (·.diagnostics)

/-- The components of the files, in order and each once. -/
def keys (parts : List FileSelection) : List (List PathComponent) :=
  dropRepeated (· == ·) (sortBy Path.compareComponents ((parts.flatMap (·.files)).map Path.components))

variable (limit : Option Nat) (parts : List FileSelection)

theorem components_merged : (merged limit parts).files.map Path.components = limited limit (keys parts) := by
  rw [merged, limited_map, keys, sortBy_map, dropRepeated_map]
  rfl

theorem pairwise_keys : (keys parts).Pairwise fun ps qs => Path.compareComponents ps qs = .lt :=
  pairwise_dropRepeated (fun _ _ => beq_iff_eq.trans Path.compareComponents_eq_iff.symm) (pairwise_sortBy _)

theorem mem_keys {parts : List FileSelection} {key : List PathComponent} :
    key ∈ keys parts ↔ ∃ part ∈ parts, key ∈ part.files.map Path.components := by
  rw [keys, mem_dropRepeated, (perm_sortBy ..).mem_iff, List.map_flatMap, List.mem_flatMap]

/-- Neither the order nor the number of the parts matters. -/
theorem keys_congr {parts parts' : List FileSelection} (h : ∀ part, part ∈ parts' ↔ part ∈ parts) :
    keys parts' = keys parts := by
  refine eq_of_pairwise_lt (pairwise_keys parts') (pairwise_keys parts) fun key => ?_
  rw [mem_keys, mem_keys]
  exact exists_congr fun part => and_congr_left fun _ => h part

theorem pairwise_merged : (merged limit parts).files.Pairwise fun p q => p.order q = .lt := by
  have hkeys := (pairwise_keys parts).sublist (limited_sublist limit _)
  rw [← components_merged] at hkeys
  exact List.pairwise_map.mp hkeys

end FileSelection

/-! ### Failures -/

theorem Except.mapM_eq_ok_map_iff {ε α β : Type} {read : α → Except ε β} {f : α → β} {items : List α} :
    items.mapM read = .ok (items.map f) ↔ ∀ a ∈ items, read a = .ok (f a) := by
  rw [Except.mapM_eq_ok_iff, List.forall₂_map_right_iff, List.forall₂_same]

theorem Except.exists_foldlM {ε α β : Type} {step : β → α → Except ε β} {items : List α}
    (h : ∀ b, ∀ a ∈ items, ∃ c, step b a = .ok c) (b : β) : ∃ c, items.foldlM step b = .ok c := by
  induction items generalizing b with
  | nil => exact ⟨b, rfl⟩
  | cons a items ih =>
    obtain ⟨hfirst, hrest⟩ := forall_and.mp fun b => List.forall_mem_cons.mp (h b)
    obtain ⟨c, hc⟩ := hfirst b
    rw [List.foldlM_cons, hc]
    exact ih hrest c

namespace PathFilter

variable {f : PathFilter} {fs : FileSystem}

/-- No ignore file is unreadable. -/
def IsReadable (f : PathFilter) (fs : FileSystem) : Prop :=
  ∀ name ∈ f.ignoreFile, ∀ directory : Path, fs.isFile (directory.join name) →
    ∃ text, fs.readText (directory.join name) = .ok text

theorem IsReadable.exists_patternsIn (h : f.IsReadable fs) {name : String} (hname : name ∈ f.ignoreFile)
    (directory : Path) : ∃ patterns, patternsIn fs directory name = .ok patterns := by
  rw [patternsIn]
  by_cases hfile : fs.isFile (directory.join name)
  · obtain ⟨text, htext⟩ := h name hname directory hfile
    exact ⟨patternsOf text, by simp only [if_pos hfile, htext]⟩
  · exact ⟨[], if_neg hfile⟩

theorem isReadable_of_texts (f : PathFilter)
    (h : ∀ place bytes, (place, .file bytes) ∈ fs.nodes → ∃ text, Utf8.decode? bytes = some text) :
    f.IsReadable fs := by
  intro name _ directory hfile
  rw [FileSystem.isFile] at hfile
  split at hfile
  · next bytes hlookup =>
    obtain ⟨place, hnode⟩ : ∃ place, fs.node? place = some (.file bytes) := by
      rw [FileSystem.lookup?] at hlookup
      split at hlookup
      · exact ⟨_, hlookup⟩
      · cases hlookup
    have hne : place ≠ [] := by
      rintro rfl
      cases hnode
    obtain ⟨text, htext⟩ := h place bytes (FileSystem.IsTree.mem_nodes hne hnode)
    exact ⟨text, FileSystem.readText_eq_ok_iff.mpr ⟨bytes, hlookup, htext⟩⟩
  · cases hfile

theorem IsReadable.exists_selects (h : f.IsReadable fs) (root p : Path) :
    ∃ answer, f.selects fs root p = .ok answer := by
  rw [selects_eq, selectsAfresh]
  split
  · exact ⟨false, rfl⟩
  · cases hname : f.ignoreFile with
    | none => exact ⟨true, rfl⟩
    | some name =>
      have hconsult : ∀ excluded, ∀ directory ∈ directoriesTo root p,
          ∃ answer, consultAfresh fs name p excluded directory = .ok answer := by
        intro excluded directory _
        obtain ⟨patterns, hpatterns⟩ := h.exists_patternsIn hname directory
        exact ⟨_, by rw [consultAfresh, hpatterns]; rfl⟩
      obtain ⟨isIgnored, hignored⟩ := Except.exists_foldlM hconsult false
      exact ⟨!isIgnored, by simp only [hignored]; rfl⟩

theorem IsReadable.exists_findFiles (h : f.IsReadable fs) (root : Path) :
    ∃ found, f.findFiles fs root = .ok found := by
  have hfold := map_foldlM_findStep f fs root (sourcesBelow fs root) []
  have hstep : ∀ found, ∀ p ∈ sourcesBelow fs root, ∃ found', f.findStepAfresh fs root found p = .ok found' := by
    intro found p _
    obtain ⟨answer, hanswer⟩ := h.exists_selects root p
    exact ⟨_, by rw [findStepAfresh, hanswer]; rfl⟩
  obtain ⟨found, hfound⟩ := Except.exists_foldlM hstep []
  rw [hfound] at hfold
  rw [findFiles_eq_map]
  cases hstate : (sourcesBelow fs root).foldlM (f.findStep fs root) ([], []) with
  | ok state => exact ⟨sortBy Path.order state.1, rfl⟩
  | error error =>
    rw [hstate] at hfold
    cases hfold

end PathFilter

/-! ### Selections -/

namespace Analyzer

variable {a : Analyzer} {fs : FileSystem} {options : RunOptions} {filter : PathFilter} {paths : List Path}

theorem exists_selectPath (h : filter.IsReadable fs) (p : Path) : ∃ part, selectPath fs filter p = .ok part := by
  rw [selectPath]
  split
  · obtain ⟨found, hfound⟩ := h.exists_findFiles p
    exact ⟨{ files := found }, by rw [hfound]; rfl⟩
  · split
    · split
      · exact ⟨{}, rfl⟩
      · obtain ⟨answer, hanswer⟩ := h.exists_selects (p.parent?.getD ⟨""⟩) p
        exact ⟨if answer then { files := [p] } else {}, by rw [hanswer]; cases answer <;> rfl⟩
    · exact ⟨_, rfl⟩

/-- A selection is merged from what each path stands for. -/
theorem selectFiles_eq_ok_iff {s : FileSelection} :
    a.selectFiles fs paths options = .ok s ↔
      ∃ filter, a.filterFor options = .ok filter ∧ ∃ part : Path → FileSelection,
        (∀ p ∈ paths, selectPath fs filter p = .ok (part p)) ∧ s = .merged options.maxFiles (paths.map part) := by
  rw [selectFiles]
  constructor
  · intro h
    cases hfilter : a.filterFor options with
    | error error =>
      rw [hfilter] at h
      cases h
    | ok filter =>
      rw [hfilter] at h
      rcases Except.mapM_cases (selectPath fs filter) paths with ⟨parts, hparts, hall⟩ | ⟨p, hp, error, -, herror⟩
      · have hpart : ∀ p ∈ paths, selectPath fs filter p = .ok ((selectPath fs filter p).toOption.getD {}) := by
          intro p hp
          obtain ⟨part, hpart⟩ := hall p hp
          rw [hpart]
          rfl
        refine ⟨filter, rfl, _, hpart, ?_⟩
        have hmap := Except.mapM_eq_ok_map_iff.mpr hpart
        simp only [bind, Except.bind, hmap] at h
        exact (Except.ok.inj h).symm
      · simp only [bind, Except.bind, herror] at h
        cases h
  · rintro ⟨filter, hfilter, part, hpart, rfl⟩
    rw [hfilter]
    simp only [bind, Except.bind, Except.mapM_eq_ok_map_iff.mpr hpart]
    rfl

/-- The files of a run are in strictly increasing order, and not more than it is to have. Whenever a selection is made
for some paths, one is made for the same paths in any other order and number, and has the same files; and if the paths
are but reordered, so are the diagnostics. A selection is made for all paths if the patterns of the run are well-formed
and no ignore file is unreadable. -/
theorem selectFiles_set (a : Analyzer) (fs : FileSystem) (options : RunOptions) :
    (∀ paths s, a.selectFiles fs paths options = .ok s →
      s.files.Pairwise (fun p q => p.order q = .lt) ∧
      (∀ limit ∈ options.maxFiles, s.files.length ≤ limit) ∧
      ∀ paths', (∀ p, p ∈ paths' ↔ p ∈ paths) → ∃ s', a.selectFiles fs paths' options = .ok s' ∧
        s'.files.map Path.components = s.files.map Path.components ∧
        (paths'.Perm paths → s'.diagnostics.Perm s.diagnostics)) ∧
    ∀ filter, a.filterFor options = .ok filter → filter.IsReadable fs →
      ∀ paths, ∃ s, a.selectFiles fs paths options = .ok s := by
  constructor
  · intro paths s h
    obtain ⟨filter, hfilter, part, hpart, rfl⟩ := selectFiles_eq_ok_iff.mp h
    refine ⟨FileSelection.pairwise_merged _ _, fun limit hlimit => ?_, fun paths' hpaths => ?_⟩
    · rw [Option.mem_def.mp hlimit]
      exact FileSelection.length_limited _
    · have hpart' : ∀ p ∈ paths', selectPath fs filter p = .ok (part p) := fun p hp => hpart p ((hpaths p).mp hp)
      refine ⟨_, selectFiles_eq_ok_iff.mpr ⟨filter, hfilter, part, hpart', rfl⟩, ?_, fun hperm => ?_⟩
      · have hparts : ∀ selection, selection ∈ paths'.map part ↔ selection ∈ paths.map part := by
          simp only [List.mem_map, hpaths, implies_true]
        rw [FileSelection.components_merged, FileSelection.components_merged, FileSelection.keys_congr hparts]
      · exact (hperm.map part).flatMap_right _
  · intro filter hfilter hreadable paths
    choose part hpart using exists_selectPath hreadable
    exact ⟨_, selectFiles_eq_ok_iff.mpr ⟨filter, hfilter, part, fun p _ => hpart p, rfl⟩⟩

/-- A directory, a file in it that is left out of a walk over the directory, and a path that leads nowhere. -/
theorem selectFiles_set_overlapping :
    let fs : FileSystem :=
      ⟨["w"],
        [(["w"], .directory), (["w", "p"], .directory), (["w", "p", ".ignore"], .file (Utf8.encode "B.cs")),
          (["w", "p", "A.cs"], .file (Utf8.encode "class A { }")), (["w", "p", "sub"], .directory),
          (["w", "p", "sub", "B.cs"], .file (Utf8.encode "class B { }"))]⟩
    let a : Analyzer := ⟨{}, ⟨[], some ".ignore"⟩, ⟨[], .unknown⟩⟩
    let options : RunOptions := { maxFiles := some 5 }
    let paths : List Path := [⟨"p"⟩, ⟨"p/sub/B.cs"⟩, ⟨"q"⟩]
    let paths' : List Path := [⟨"q"⟩, ⟨"p/sub/B.cs"⟩, ⟨"p"⟩]
    a.filterFor options = .ok a.filter ∧ a.filter.IsReadable fs ∧ paths'.Perm paths ∧
      ∃ s s', a.selectFiles fs paths options = .ok s ∧ a.selectFiles fs paths' options = .ok s' ∧
        s.files.Pairwise (fun p q => p.order q = .lt) ∧ s.files.length ≤ 5 ∧
        s'.files.map Path.components = s.files.map Path.components ∧ s'.diagnostics.Perm s.diagnostics := by
  intro fs a options paths paths'
  have hreadable : a.filter.IsReadable fs := by
    refine PathFilter.isReadable_of_texts _ fun place bytes hmem => ?_
    simp only [fs, List.mem_cons, Prod.mk.injEq, reduceCtorEq, and_false, FileNode.file.injEq, List.not_mem_nil,
      or_false, false_or] at hmem
    rcases hmem with ⟨-, rfl⟩ | ⟨-, rfl⟩ | ⟨-, rfl⟩ <;> exact ⟨_, Utf8.decode?_encode _⟩
  have hperm : paths'.Perm paths := List.reverse_perm paths
  obtain ⟨hset, hsuccess⟩ := selectFiles_set a fs options
  obtain ⟨s, hs⟩ := hsuccess a.filter rfl hreadable paths
  obtain ⟨hsorted, hlimit, hsame⟩ := hset paths s hs
  obtain ⟨s', hs', hfiles, hdiagnostics⟩ := hsame paths' fun p => hperm.mem_iff
  exact ⟨rfl, hreadable, hperm, s, s', hs, hs', hsorted, hlimit 5 rfl, hfiles, hdiagnostics hperm⟩

end Analyzer

end CSharpStyle
