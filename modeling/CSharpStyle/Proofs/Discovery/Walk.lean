import CSharpStyle.Proofs.Cache.Agreement
import CSharpStyle.Proofs.Discovery.Tree
import CSharpStyle.Proofs.Findings.Order
import CSharpStyle.Proofs.Settings.Usability

/-!
# Discovered files

A walk asks for each source file below a directory whether it takes part in a run, and reads each ignore file once. The
answers are those of two lists of patterns, in each of which the last pattern that matches decides: the configured ones,
and those of all ignore files from the directory of the walk down to the file.

* `AsIfFresh`: answers from ignore files that were read before are those of files that are read now.
* `PathFilter.Selected`: the rule that decides about one file.
* `PathFilter.findFiles_eq`: a walk finds the files that the rule selects, in whatever order it comes by them.
-/

namespace CSharpStyle

open PathFilter

/-! ### Ignore files that were read before -/

section Caching

variable {α β : Type} {f : PathFilter} {fs : FileSystem}

/-- What is remembered of a directory is what its ignore file holds. -/
def IgnoreCache.Sound (f : PathFilter) (fs : FileSystem) (cache : IgnoreCache) : Prop :=
  ∀ name ∈ f.ignoreFile, ∀ entry ∈ cache, patternsIn fs entry.1 name = .ok entry.2

/-- The result is the one without a cache, and the cache is sound behind it. -/
def AsIfFresh (f : PathFilter) (fs : FileSystem) (cached : Except Failure (α × IgnoreCache))
    (fresh : Except Failure α) : Prop :=
  match cached with
  | .ok (a, cache) => fresh = .ok a ∧ cache.Sound f fs
  | .error error => fresh = .error error

namespace AsIfFresh

theorem pure {cache : IgnoreCache} (hcache : cache.Sound f fs) (a : α) : AsIfFresh f fs (.ok (a, cache)) (.ok a) :=
  ⟨rfl, hcache⟩

theorem bind {cached : Except Failure (α × IgnoreCache)} {fresh : Except Failure α}
    {next : α × IgnoreCache → Except Failure (β × IgnoreCache)} {next' : α → Except Failure β}
    (h : AsIfFresh f fs cached fresh)
    (hnext : ∀ a (cache : IgnoreCache), cache.Sound f fs → AsIfFresh f fs (next (a, cache)) (next' a)) :
    AsIfFresh f fs (cached >>= next) (fresh >>= next') := by
  cases cached with
  | ok result =>
    obtain ⟨a, cache⟩ := result
    obtain ⟨rfl, hcache⟩ := h
    exact hnext a cache hcache
  | error error =>
    cases (h : fresh = .error error)
    exact rfl

theorem map_eq {cached : Except Failure (α × IgnoreCache)} {fresh : Except Failure α}
    (h : AsIfFresh f fs cached fresh) : cached.map (·.1) = fresh := by
  cases cached with
  | ok result => exact h.1.symm
  | error error => exact (h : fresh = .error error).symm

/-- A directory is looked up by its components, so that the path which was read first counts. -/
theorem patterns {cache : IgnoreCache} (hcache : cache.Sound f fs) {name : String} (hname : name ∈ f.ignoreFile)
    (directory : Path) :
    AsIfFresh f fs (cache.patterns fs directory name) (patternsIn fs directory name) := by
  rw [IgnoreCache.patterns]
  cases hfind : cache.find? (·.1.same directory) with
  | some entry =>
    obtain ⟨other, known⟩ := entry
    have hknown : patternsIn fs other name = .ok known := hcache name hname (other, known) (List.mem_of_find?_eq_some hfind)
    have hsame : other.components = directory.components := by
      have hbeq := List.find?_some hfind
      exact eq_of_beq hbeq
    exact ⟨patternsIn_of_components_eq hsame hknown, hcache⟩
  | none =>
    cases hread : patternsIn fs directory name with
    | error error => exact rfl
    | ok patterns =>
      refine ⟨rfl, fun name' hname' entry hentry => ?_⟩
      cases Option.mem_unique hname' hname
      rcases List.mem_cons.mp hentry with rfl | hentry
      · exact hread
      · exact hcache name hname entry hentry

theorem foldlM {step : α × IgnoreCache → β → Except Failure (α × IgnoreCache)} {step' : α → β → Except Failure α}
    (hstep : ∀ a (cache : IgnoreCache), cache.Sound f fs → ∀ b, AsIfFresh f fs (step (a, cache) b) (step' a b))
    (items : List β) (a : α) {cache : IgnoreCache} (hcache : cache.Sound f fs) :
    AsIfFresh f fs (items.foldlM step (a, cache)) (items.foldlM step' a) := by
  induction items generalizing a cache with
  | nil => exact pure hcache a
  | cons item items ih =>
    rw [List.foldlM_cons, List.foldlM_cons]
    exact (hstep a cache hcache item).bind fun a' cache' hcache' => ih a' hcache'

end AsIfFresh

end Caching

namespace PathFilter

variable {f : PathFilter} {fs : FileSystem} {root p : Path} {names : List String}

/-- What the ignore file in a directory makes of an answer when it is read for this file. -/
def consultAfresh (fs : FileSystem) (name : String) (p : Path) (excluded : Bool) (directory : Path) :
    Except Failure Bool := do
  let patterns ← patternsIn fs directory name
  .ok (((p.relativeTo? directory).bind (lastMatch? patterns)).getD excluded)

/-- The answer of a filter that reads all ignore files for this file. -/
def selectsAfresh (f : PathFilter) (fs : FileSystem) (root p : Path) : Except Failure Bool :=
  if f.excludes ((p.relativeTo? root).getD p) then .ok false
  else
    match f.ignoreFile with
    | none => .ok true
    | some name => do
      let isIgnored ← (directoriesTo root p).foldlM (consultAfresh fs name p) false
      .ok (!isIgnored)

theorem selectsWith_asIfFresh {cache : IgnoreCache} (hcache : cache.Sound f fs) (root p : Path) :
    AsIfFresh f fs (f.selectsWith fs root p cache) (f.selectsAfresh fs root p) := by
  rw [selectsWith, selectsAfresh]
  split
  · exact .pure hcache false
  · rw [ignores]
    cases hname : f.ignoreFile with
    | none => exact .pure hcache true
    | some name =>
      refine (AsIfFresh.foldlM (fun excluded cache hcache directory => ?_) _ false hcache).bind
        fun isIgnored cache hcache => .pure hcache (!isIgnored)
      exact (AsIfFresh.patterns hcache hname directory).bind fun patterns cache hcache => .pure hcache _

theorem sound_nil : IgnoreCache.Sound f fs [] := fun _ _ _ hentry => absurd hentry List.not_mem_nil

theorem selects_eq : f.selects fs root p = f.selectsAfresh fs root p :=
  (selectsWith_asIfFresh sound_nil root p).map_eq

/-! ### The last pattern that matches -/

/-- A pattern and the path that it is compared with. -/
abbrev Comparison := FilterPattern × Path

/-- The last pattern that matches what it is compared with. -/
def decisive? (comparisons : List Comparison) : Option FilterPattern :=
  ((comparisons.filter fun c => c.1.matchesPath c.2).getLast?).map (·.1)

/-- No pattern matches, or the last one that does includes the path again. -/
def Admits (comparisons : List Comparison) : Prop := ∀ g ∈ decisive? comparisons, g.includes = true

theorem decisive?_append (first second : List Comparison) :
    decisive? (first ++ second) = (decisive? second).or (decisive? first) := by
  rw [decisive?, decisive?, decisive?, List.filter_append, List.getLast?_append]
  cases (second.filter fun c => c.1.matchesPath c.2).getLast? <;> rfl

theorem lastMatch?_eq (patterns : List FilterPattern) (p : Path) :
    lastMatch? patterns p = (decisive? (patterns.map (·, p))).map fun g => !g.includes := by
  have hfilter : (patterns.map (·, p)).filter (fun c => c.1.matchesPath c.2) =
      (patterns.filter (·.matchesPath p)).map (·, p) := by
    rw [List.filter_map]
    rfl
  rw [lastMatch?, decisive?, hfilter, ← List.head?_filter, List.filter_reverse, List.head?_reverse, List.getLast?_map,
    Option.map_map, Option.map_map]
  rfl

/-- The answer that the comparisons give, when something was answered before. -/
def answer (comparisons : List Comparison) (before : Bool) : Bool :=
  ((decisive? comparisons).map fun g => !g.includes).getD before

theorem answer_append (first second : List Comparison) (before : Bool) :
    answer (first ++ second) before = answer second (answer first before) := by
  rw [answer, answer, answer, decisive?_append]
  cases decisive? second <;> rfl

theorem answer_eq_false_iff (comparisons : List Comparison) : answer comparisons false = false ↔ Admits comparisons := by
  rw [answer, Admits]
  cases decisive? comparisons with
  | none => simp
  | some g => simp

/-! ### What a filter selects -/

/-- The patterns of the ignore files from `root` down to a file, each with the path of the file as seen from the directory
of its ignore file. -/
def ignoreComparisons (fs : FileSystem) (root : Path) (names : List String) (name : String) : List Comparison :=
  (List.range names.length).flatMap fun k =>
    ((patternsIn fs (below root (names.take k)) name).toOption.getD []).map (·, ofNames (names.drop k))

/-- The rule that selects the files of a run: the configured patterns admit the file, and so do the ignore files, if
there are to be any. -/
structure Selected (f : PathFilter) (fs : FileSystem) (root : Path) (names : List String) : Prop where
  configured : Admits (f.patterns.map (·, ofNames names))
  notIgnored : ∀ name ∈ f.ignoreFile, Admits (ignoreComparisons fs root names name)

/-- All ignore files in directories below `root` can be read. -/
def CanRead (f : PathFilter) (fs : FileSystem) (root : Path) : Prop :=
  ∀ top dirs, fs.resolve root = .ok top → fs.node? (top ++ dirs) = some .directory →
    ∀ name ∈ f.ignoreFile, ∃ patterns, patternsIn fs (below root dirs) name = .ok patterns

section Found

variable {top : List String}

theorem toList_root_ne_nil (htop : fs.resolve root = .ok top) : root.text.toList ≠ [] := by
  intro h
  have hempty : root.text = "" := String.toList_injective h
  rw [FileSystem.resolve, hempty] at htop
  cases htop

/-- The answers of the ignore files in some directories on the way to a file, the deeper ones overruling those above. -/
theorem foldlM_consultAfresh (hroot : root.text.toList ≠ []) (hnames : ∀ name ∈ names, Path.IsName name)
    {name : String} (depths : List Nat) (hdepths : ∀ k ∈ depths, k < names.length)
    (hread : ∀ k ∈ depths, ∃ patterns, patternsIn fs (below root (names.take k)) name = .ok patterns)
    {directories : List Path}
    (h : directories.map (·.components) = depths.map fun k => root.components ++ (names.take k).map .name)
    (before : Bool) :
    directories.foldlM (consultAfresh fs name (below root names)) before =
      .ok (answer (depths.flatMap fun k =>
        ((patternsIn fs (below root (names.take k)) name).toOption.getD []).map (·, ofNames (names.drop k))) before) := by
  induction depths generalizing directories before with
  | nil =>
    cases List.map_eq_nil_iff.mp h
    rfl
  | cons k depths ih =>
    obtain ⟨directory, directories, rfl, hdirectory, hrest⟩ := List.map_eq_cons_iff.mp h
    have hk : k < names.length := hdepths k (List.mem_cons_self ..)
    have hbelow := components_below hroot fun n hn => hnames n (List.take_subset k names hn)
    obtain ⟨patterns, hpatterns⟩ := hread k (List.mem_cons_self ..)
    have hrelative := relativeTo?_below hroot hnames (Nat.le_of_lt hk) hdirectory
    have hfirst : consultAfresh fs name (below root names) before directory =
        .ok (answer (patterns.map (·, ofNames (names.drop k))) before) := by
      rw [consultAfresh, patternsIn_of_components_eq (hbelow.trans hdirectory.symm) hpatterns, hrelative, answer,
        ← lastMatch?_eq]
      rfl
    rw [List.foldlM_cons, hfirst, List.flatMap_cons, answer_append, hpatterns]
    exact ih (fun k hk => hdepths k (List.mem_cons_of_mem _ hk)) (fun k hk => hread k (List.mem_cons_of_mem _ hk))
      hrest _

/-- The filter answers as the rule says. -/
theorem exists_selects (htree : fs.IsTree) (hread : f.CanRead fs root) (htop : fs.resolve root = .ok top)
    (hmem : names ∈ fs.filesBelow root) :
    ∃ selected, f.selects fs root (below root names) = .ok selected ∧ (selected = true ↔ f.Selected fs root names) := by
  have hroot := toList_root_ne_nil htop
  have hnames := htree.isName_of_mem_filesBelow htop hmem
  have hrelative : (below root names).relativeTo? root = some (ofNames names) :=
    relativeTo?_below hroot hnames (Nat.zero_le _) (by simp)
  have hexcludes : f.excludes (ofNames names) = answer (f.patterns.map (·, ofNames names)) false := by
    rw [excludes, lastMatch?_eq]
    rfl
  rw [selects_eq, selectsAfresh, hrelative, Option.getD_some, hexcludes]
  by_cases hconfigured : answer (f.patterns.map (·, ofNames names)) false = true
  · refine ⟨false, by rw [if_pos hconfigured], nofun, fun h => ?_⟩
    rw [(answer_eq_false_iff _).mpr h.configured] at hconfigured
    cases hconfigured
  · have hadmits : Admits (f.patterns.map (·, ofNames names)) :=
      (answer_eq_false_iff _).mp (Bool.eq_false_iff.mpr hconfigured)
    rw [if_neg hconfigured]
    cases hname : f.ignoreFile with
    | none => exact ⟨true, rfl, iff_of_true rfl ⟨hadmits, by simp [hname]⟩⟩
    | some name =>
      have hfold := foldlM_consultAfresh hroot hnames (List.range names.length) (fun k hk => List.mem_range.mp hk)
        (fun k hk => hread top _ htop (htree.node?_append_take htop hmem (List.mem_range.mp hk)) name hname)
        (map_components_directoriesTo hroot hnames) false
      refine ⟨!answer (ignoreComparisons fs root names name) false, ?_, ?_⟩
      · simp only [hfold]
        rfl
      · rw [Bool.not_eq_true', answer_eq_false_iff]
        refine ⟨fun h => ⟨hadmits, ?_⟩, fun h => h.notIgnored name hname⟩
        rw [hname]
        rintro _ ⟨⟩
        exact h

end Found

/-! ### Walks in any order -/

/-- Adds the next file of a walk if a filter that remembers nothing selects it. -/
def findStepAfresh (f : PathFilter) (fs : FileSystem) (root : Path) (found : List Path) (p : Path) :
    Except Failure (List Path) := do
  let isSelected ← f.selects fs root p
  .ok (if isSelected then found ++ [p] else found)

/-- What is remembered of the ignore files cannot be seen in what a walk finds. -/
theorem map_foldlM_findStep (f : PathFilter) (fs : FileSystem) (root : Path) (walk found : List Path) :
    (walk.foldlM (f.findStep fs root) (found, [])).map (·.1) = walk.foldlM (f.findStepAfresh fs root) found := by
  have hnothing : IgnoreCache.Sound f fs [] := sound_nil
  refine (AsIfFresh.foldlM (fun found cache hcache p => ?_) walk found hnothing).map_eq
  rw [findStep, findStepAfresh, selects_eq]
  exact (selectsWith_asIfFresh hcache root p).bind fun isSelected cache hcache => .pure hcache _

theorem foldlM_findStepAfresh {walk : List Path} {selected : Path → Bool}
    (h : ∀ p ∈ walk, f.selects fs root p = .ok (selected p)) (found : List Path) :
    walk.foldlM (f.findStepAfresh fs root) found = .ok (found ++ walk.filter selected) := by
  induction walk generalizing found with
  | nil => rw [List.filter_nil, List.append_nil]; rfl
  | cons p walk ih =>
    have hfirst : f.findStepAfresh fs root found p = .ok (if selected p then found ++ [p] else found) := by
      rw [findStepAfresh, h p (List.mem_cons_self ..)]
      rfl
    rw [List.foldlM_cons, hfirst]
    refine (ih (fun p hp => h p (List.mem_cons_of_mem _ hp)) _).trans ?_
    cases hp : selected p <;> simp [hp]

/-! ### Discovery -/

/-- A walk comes by each source file once. -/
theorem pairwise_sourcesBelow (htree : fs.IsTree) (root : Path) :
    (sourcesBelow fs root).Pairwise fun p q => p.order q ≠ .eq := by
  refine List.Pairwise.filter _ ?_
  cases htop : fs.resolve root with
  | error error =>
    rw [FileSystem.IsTree.filesBelow_of_error htop]
    exact .nil
  | ok top =>
    have hroot := toList_root_ne_nil htop
    have hname {names : List String} (h : names ∈ fs.filesBelow root) : ∀ name ∈ names, Path.IsName name :=
      htree.isName_of_mem_filesBelow htop h
    refine List.pairwise_map.mpr ((htree.nodup_filesBelow root).imp_of_mem fun hnames hnames' hne horder => hne ?_)
    have hcomponents := Path.same_iff.mp (Path.same_iff_order_eq.mpr horder)
    rw [components_below hroot (hname hnames), components_below hroot (hname hnames'), List.append_cancel_left_eq]
      at hcomponents
    exact List.map_injective_iff.mpr (fun _ _ h => PathComponent.name.inj h) hcomponents

/-- A walk over some files in any order ends with the sorted files that are selected one by one. -/
theorem map_sortBy_foldlM_findStep {files walk : List Path} (hdistinct : files.Pairwise fun p q => p.order q ≠ .eq)
    (hperm : walk.Perm files) {selected : Path → Bool} (h : ∀ p ∈ files, f.selects fs root p = .ok (selected p)) :
    (walk.foldlM (f.findStep fs root) ([], [])).map (fun state => sortBy Path.order state.1) =
      .ok (sortBy Path.order (files.filter selected)) := by
  have hwalk : (walk.foldlM (f.findStep fs root) ([], [])).map (·.1) = .ok (walk.filter selected) := by
    rw [map_foldlM_findStep, foldlM_findStepAfresh fun p hp => h p (hperm.subset hp), List.nil_append]
  cases hstate : walk.foldlM (f.findStep fs root) ([], []) with
  | error error =>
    rw [hstate] at hwalk
    cases hwalk
  | ok state =>
    rw [hstate] at hwalk
    have hfound : state.1 = walk.filter selected := Except.ok.inj hwalk
    change Except.ok (sortBy Path.order state.1) = _
    rw [hfound, sortBy_perm (hdistinct.filter selected) (hperm.filter selected)]

theorem findFiles_eq_map (f : PathFilter) (fs : FileSystem) (root : Path) :
    f.findFiles fs root = ((sourcesBelow fs root).foldlM (f.findStep fs root) ([], [])).map
      fun state => sortBy Path.order state.1 := by
  rw [findFiles]
  cases (sourcesBelow fs root).foldlM (f.findStep fs root) ([], []) <;> rfl

/-- A walk over a tree whose ignore files can be read finds the source files that the rule selects, in strictly
increasing order. These are the files that are selected when each is asked for alone, without a cache, and any walk that
comes by the same files finds them. -/
theorem findFiles_eq (htree : fs.IsTree) (hread : f.CanRead fs root) :
    ∃ found, f.findFiles fs root = .ok found ∧ found.Pairwise (fun p q => p.order q = .lt) ∧
      (∀ p, p ∈ found ↔ ∃ top names bytes, fs.resolve root = .ok top ∧
        fs.node? (top ++ names) = some (.file bytes) ∧ p = below root names ∧ isSource p ∧ f.Selected fs root names) ∧
      (∀ p ∈ sourcesBelow fs root, f.selects fs root p = .ok (decide (p ∈ found))) ∧
      ∀ walk : List Path, walk.Perm (sourcesBelow fs root) →
        (walk.foldlM (f.findStep fs root) ([], [])).map (fun state => sortBy Path.order state.1) = .ok found := by
  have hdistinct := pairwise_sourcesBelow htree root
  -- the answers that the filter gives to each file alone
  let selected (p : Path) : Bool := (f.selects fs root p).toOption.getD false
  have hanswer {top names : List String} (htop : fs.resolve root = .ok top) (hmem : names ∈ fs.filesBelow root) :
      f.selects fs root (below root names) = .ok (selected (below root names)) ∧
        (selected (below root names) = true ↔ f.Selected fs root names) := by
    obtain ⟨answer, hanswer, hselected⟩ := exists_selects htree hread htop hmem
    have heq : selected (below root names) = answer := by
      simp only [selected, hanswer, Except.toOption, Option.getD_some]
    rw [heq]
    exact ⟨hanswer, hselected⟩
  have hfile (p : Path) : p ∈ sourcesBelow fs root ↔ ∃ top names bytes, fs.resolve root = .ok top ∧
      fs.node? (top ++ names) = some (.file bytes) ∧ p = below root names ∧ isSource p := by
    rw [sourcesBelow, List.mem_filter, List.mem_map]
    cases htop : fs.resolve root with
    | error error => simp [FileSystem.IsTree.filesBelow_of_error htop]
    | ok top =>
      constructor
      · rintro ⟨⟨names, hmem, rfl⟩, hsource⟩
        obtain ⟨bytes, hnode⟩ := (htree.mem_filesBelow htop).mp hmem
        exact ⟨top, names, bytes, rfl, hnode, rfl, hsource⟩
      · rintro ⟨top', names, bytes, ⟨⟩, hnode, rfl, hsource⟩
        exact ⟨⟨names, (htree.mem_filesBelow htop).mpr ⟨bytes, hnode⟩, rfl⟩, hsource⟩
  have hselects : ∀ p ∈ sourcesBelow fs root, f.selects fs root p = .ok (selected p) := by
    intro p hp
    obtain ⟨top, names, bytes, htop, hnode, rfl, -⟩ := (hfile p).mp hp
    exact (hanswer htop ((htree.mem_filesBelow htop).mpr ⟨bytes, hnode⟩)).1
  have hmem (p : Path) : p ∈ sortBy Path.order ((sourcesBelow fs root).filter selected) ↔
      p ∈ sourcesBelow fs root ∧ selected p = true :=
    (List.mergeSort_perm _ _).mem_iff.trans List.mem_filter
  refine ⟨sortBy Path.order ((sourcesBelow fs root).filter selected), ?_, pairwise_lt_sortBy (hdistinct.filter _),
    fun p => ?_, fun p hp => ?_, fun walk hperm => map_sortBy_foldlM_findStep hdistinct hperm hselects⟩
  · rw [findFiles_eq_map, map_sortBy_foldlM_findStep hdistinct (List.Perm.refl _) hselects]
  · rw [hmem, hfile]
    constructor
    · rintro ⟨⟨top, names, bytes, htop, hnode, rfl, hsource⟩, hselected⟩
      have hiff := (hanswer htop ((htree.mem_filesBelow htop).mpr ⟨bytes, hnode⟩)).2
      exact ⟨top, names, bytes, htop, hnode, rfl, hsource, hiff.mp hselected⟩
    · rintro ⟨top, names, bytes, htop, hnode, rfl, hsource, hselected⟩
      have hiff := (hanswer htop ((htree.mem_filesBelow htop).mpr ⟨bytes, hnode⟩)).2
      exact ⟨⟨top, names, bytes, htop, hnode, rfl, hsource⟩, hiff.mpr hselected⟩
  · rw [hselects p hp, Bool.decide_congr (hmem p)]
    cases selected p <;> simp [hp]

/-- A pattern of an ignore file is overruled by one that stands in a directory below it. -/
theorem findFiles_eq_nested_ignore_files :
    let fs : FileSystem :=
      ⟨["w"],
        [(["w"], .directory), (["w", "p"], .directory), (["w", "p", ".ignore"], .file (Utf8.encode "*.cs")),
          (["w", "p", "A.cs"], .file []), (["w", "p", "sub"], .directory),
          (["w", "p", "sub", ".ignore"], .file (Utf8.encode "!B.cs")), (["w", "p", "sub", "B.cs"], .file [])]⟩
    let f : PathFilter := ⟨[], some ".ignore"⟩
    fs.IsTree ∧ f.CanRead fs ⟨"p/"⟩ ∧
      ∃ found, f.findFiles fs ⟨"p/"⟩ = .ok found ∧ ⟨"p/sub/B.cs"⟩ ∈ found ∧ ⟨"p/A.cs"⟩ ∉ found := by
  intro fs f
  have htree : fs.IsTree :=
    ⟨by decide +kernel, by decide +kernel, by decide +kernel, by decide +kernel⟩
  have hread : f.CanRead fs ⟨"p/"⟩ := by
    rintro top dirs htop hnode _ ⟨⟩
    have htop' : fs.resolve ⟨"p/"⟩ = .ok ["w", "p"] := Except.eq_ok_of_toOption (by decide +kernel)
    cases htop'.symm.trans htop
    have hdirs : dirs = [] ∨ dirs = ["sub"] := by
      have hmem := FileSystem.IsTree.mem_nodes (List.append_ne_nil_of_left_ne_nil (List.cons_ne_nil _ _) dirs) hnode
      simpa [fs] using hmem
    have hok : ∀ dirs ∈ [[], ["sub"]], (patternsIn fs (below ⟨"p/"⟩ dirs) ".ignore").isOk = true := by decide +kernel
    have hfile := hok dirs (by simpa using hdirs)
    cases hpatterns : patternsIn fs (below ⟨"p/"⟩ dirs) ".ignore" with
    | ok patterns => exact ⟨patterns, rfl⟩
    | error error =>
      rw [hpatterns] at hfile
      cases hfile
  obtain ⟨found, hfound, -, -, hselects, -⟩ := findFiles_eq htree hread
  have hB := hselects ⟨"p/sub/B.cs"⟩ (by decide +kernel)
  have hA := hselects ⟨"p/A.cs"⟩ (by decide +kernel)
  have hB' : f.selects fs ⟨"p/"⟩ ⟨"p/sub/B.cs"⟩ = .ok true := Except.eq_ok_of_toOption (by decide +kernel)
  have hA' : f.selects fs ⟨"p/"⟩ ⟨"p/A.cs"⟩ = .ok false := Except.eq_ok_of_toOption (by decide +kernel)
  rw [hB', Except.ok.injEq] at hB
  rw [hA', Except.ok.injEq] at hA
  exact ⟨htree, hread, found, hfound, of_decide_eq_true hB.symm, of_decide_eq_false hA.symm⟩

end PathFilter

end CSharpStyle
