import CSharpStyle.Proofs.Discovery.Paths

/-!
# Trees of files

A snapshot is a tree when each place is listed once, under a name that an entry can have, and below a directory. A walk
then finds each file below a directory once, behind directories only. Which of the paths to a directory is used does not
matter when something in it is read.

* `FileSystem.resolve_join`: paths with the same components lead to the same entries.
* `FileSystem.IsTree`: the snapshots that a disk can hold.
* `FileSystem.IsTree.mem_filesBelow`: the files that a walk finds.
* `PathFilter.patternsIn_of_components_eq`: a directory has one ignore file, whatever path leads to it.
-/

namespace CSharpStyle

namespace Path

/-- The pieces of a path that are components, after what stands before them. -/
theorem filter_pieces (isRooted : Bool) (pieces : List (List Char)) :
    pieces.filter (fun piece => !isVoid piece) =
      ((componentsOf isRooted pieces).filter fun c => c ≠ .root ∧ c ≠ .current).map (·.text.toList) := by
  have hlead : (if isRooted then [.root] else if pieces.head? = some ['.'] then [.current] else [] :
      List PathComponent).filter (fun c => c ≠ .root ∧ c ≠ .current) = [] := by
    cases isRooted with
    | true => rfl
    | false =>
      rw [if_neg Bool.false_ne_true]
      split <;> rfl
  rw [componentsOf, List.filter_append, hlead, List.nil_append]
  clear hlead
  induction pieces with
  | nil => rfl
  | cons piece pieces ih =>
    by_cases hvoid : isVoid piece
    · rw [List.filterMap_cons_none (componentOf?_eq_none.mpr hvoid), List.filter_cons_of_neg (by simp [hvoid]), ih]
    · obtain ⟨component, hcomponent⟩ := Option.ne_none_iff_exists'.mp (mt componentOf?_eq_none.mp hvoid)
      obtain ⟨htext, hroot, hcurrent⟩ := text_of_componentOf? hcomponent
      rw [List.filterMap_cons_some hcomponent, List.filter_cons_of_pos (by simp [hvoid]),
        List.filter_cons_of_pos (by simp [hroot, hcurrent]), List.map_cons, htext, ih]

end Path

namespace FileSystem

open CSharpStyle.Path

variable {fs : FileSystem}

/-! ### Paths to one place -/

/-- What is no component is stepped over by what comes behind it. -/
theorem step_bind_step {piece : List Char} (hvoid : isVoid piece) (fs : FileSystem) (place : List String)
    (next : List Char) : (fs.step place piece >>= fun other => fs.step other next) = fs.step place next := by
  rw [step]
  cases hnode : fs.node? place with
  | none =>
    rw [step, hnode]
    rfl
  | some node =>
    cases node with
    | file bytes =>
      rw [step, hnode]
      rfl
    | directory =>
      simp only [if_pos hvoid]
      rfl

theorem foldlM_step_filter (fs : FileSystem) (before : List (List Char)) {behind : List (List Char)}
    (hbehind : behind ≠ []) (place : List String) :
    (before ++ behind).foldlM fs.step place =
      (before.filter (fun piece => !isVoid piece) ++ behind).foldlM fs.step place := by
  induction before generalizing place with
  | nil => rfl
  | cons piece before ih =>
    by_cases hvoid : isVoid piece
    · rw [List.filter_cons_of_neg (by simp [hvoid]), ← ih, List.cons_append]
      obtain ⟨next, rest, hnext⟩ := List.exists_cons_of_ne_nil (List.append_ne_nil_of_right_ne_nil before hbehind)
      rw [hnext, List.foldlM_cons, List.foldlM_cons, ← step_bind_step hvoid fs place next, bind_assoc]
      rfl
    · rw [List.filter_cons_of_pos (by simp [hvoid]), List.cons_append, List.cons_append, List.foldlM_cons,
        List.foldlM_cons]
      exact bind_congr fun other => ih other

theorem resolve_of_toList_ne_nil (fs : FileSystem) {p : Path} (hp : p.text.toList ≠ []) :
    fs.resolve p = p.pieces.foldlM fs.step (if p.isRooted then [] else fs.workingDirectory) := by
  rw [resolve, if_neg fun h => hp (by rw [String.isEmpty_iff.mp h]; rfl)]

/-- An entry is found by all paths to its directory. -/
theorem resolve_join (fs : FileSystem) {p q : Path} (h : p.components = q.components) (inner : String) :
    fs.resolve (p.join inner) = fs.resolve (q.join inner) := by
  by_cases hinner : inner.toList.head? = some '/'
  · rw [join, join, if_pos (beq_iff_eq.mpr hinner), if_pos (beq_iff_eq.mpr hinner)]
  by_cases hp : p.text.toList = []
  · have hq : q.text.toList = [] := by
      by_contra hq
      refine PathFilter.components_ne_nil hq (h ▸ ?_)
      rw [components, hp]
      rfl
    have hpq : p.text = q.text := String.toList_injective (hp.trans hq.symm)
    rw [join, join, hpq]
  have hq : q.text.toList ≠ [] := by
    intro hq
    refine PathFilter.components_ne_nil hp (h.trans ?_)
    rw [components, hq]
    rfl
  have hrooted : p.isRooted = q.isRooted := by
    rw [Bool.eq_iff_iff, ← root_mem_componentsOf, ← root_mem_componentsOf, ← components_eq, ← components_eq, h]
  have hstem : p.stem.filter (fun piece => !isVoid piece) = q.stem.filter fun piece => !isVoid piece := by
    rw [filter_pieces p.isRooted, filter_pieces q.isRooted, ← components_eq_stem, ← components_eq_stem, h]
  have hjoin {r : Path} (hr : r.text.toList ≠ []) : fs.resolve (r.join inner) =
      (r.stem.filter (fun piece => !isVoid piece) ++ splitOnChar '/' inner.toList).foldlM fs.step
        (if r.isRooted then [] else fs.workingDirectory) := by
    have hne : (r.join inner).text.toList ≠ [] := by
      rw [toList_join hr hinner]
      exact List.append_ne_nil_of_left_ne_nil hr _
    rw [resolve_of_toList_ne_nil fs hne, (pieces_join hr hinner).1, (pieces_join hr hinner).2,
      foldlM_step_filter fs r.stem (splitOnChar_ne_nil _)]
  rw [hjoin hp, hjoin hq, hstem, hrooted]

/-! ### Trees -/

/-- Each place is listed once, under names that entries can have, and is in a directory. -/
structure IsTree (fs : FileSystem) : Prop where
  nodup : (fs.nodes.map (·.1)).Nodup
  place_ne_nil : ∀ place ∈ fs.nodes.map (·.1), place ≠ []
  isName : ∀ place ∈ fs.nodes.map (·.1), ∀ name ∈ place, IsName name
  parent : ∀ place ∈ fs.nodes.map (·.1), fs.node? place.dropLast = some .directory

namespace IsTree

theorem mem_nodes {place : List String} {node : FileNode} (hne : place ≠ []) (h : fs.node? place = some node) :
    (place, node) ∈ fs.nodes := by
  rw [node?, if_neg (by simpa using hne), List.lookup_eq_some_iff] at h
  obtain ⟨before, behind, hnodes, -⟩ := h
  rw [hnodes]
  exact List.mem_append_right _ (List.mem_cons_self ..)

theorem node?_of_mem (htree : fs.IsTree) {place : List String} {node : FileNode} (h : (place, node) ∈ fs.nodes) :
    fs.node? place = some node := by
  have hne : place ≠ [] := htree.place_ne_nil _ (List.mem_map_of_mem h)
  rw [node?, if_neg (by simpa using hne), List.lookup_eq_some_iff]
  obtain ⟨before, behind, hnodes⟩ := List.append_of_mem h
  refine ⟨before, behind, hnodes, fun other hother => ?_⟩
  have hnodup := htree.nodup
  rw [hnodes, List.map_append, List.map_cons, List.nodup_append] at hnodup
  exact bne_iff_ne.mpr (hnodup.2.2 _ (List.mem_map_of_mem hother) _ (List.mem_cons_self ..)).symm

/-- What leads to an entry are directories. -/
theorem node?_take (htree : fs.IsTree) {place : List String} (h : place ∈ fs.nodes.map (·.1)) {n : Nat}
    (hn : n < place.length) : fs.node? (place.take n) = some .directory := by
  induction place using List.reverseRecOn with
  | nil => exact absurd hn (Nat.not_lt_zero n)
  | append_singleton before last ih =>
    have hbefore : fs.node? before = some .directory := by
      have hparent := htree.parent _ h
      rwa [List.dropLast_concat] at hparent
    rw [List.length_append, List.length_singleton] at hn
    rw [List.take_append_of_le_length (by omega)]
    by_cases hall : n = before.length
    · rw [hall, List.take_length, hbefore]
    · have hne : before ≠ [] := by
        rintro rfl
        exact hall (by simpa using hn)
      exact ih (List.mem_map.mpr ⟨_, mem_nodes hne hbefore, rfl⟩) (by omega)

/-! ### Walks -/

variable {root : Path} {top names : List String}

/-- A walk finds the files below a directory. -/
theorem mem_filesBelow (htree : fs.IsTree) (htop : fs.resolve root = .ok top) :
    names ∈ fs.filesBelow root ↔ ∃ bytes, fs.node? (top ++ names) = some (.file bytes) := by
  rw [filesBelow, htop]
  simp only [List.mem_filterMap, Prod.exists]
  constructor
  · rintro ⟨place, node, hmem, hnode⟩
    cases node with
    | directory => cases hnode
    | file bytes =>
      simp only [Option.ite_none_right_eq_some, Option.some.injEq, List.isPrefixOf_iff_prefix] at hnode
      obtain ⟨⟨behind, rfl⟩, hnames⟩ := hnode
      rw [List.drop_left] at hnames
      exact ⟨bytes, hnames ▸ htree.node?_of_mem hmem⟩
  · rintro ⟨bytes, hnode⟩
    have hne : top ++ names ≠ [] := by
      intro hnil
      rw [hnil, node?, List.isEmpty_nil, if_pos rfl] at hnode
      cases hnode
    refine ⟨top ++ names, .file bytes, mem_nodes hne hnode, ?_⟩
    simp

theorem filesBelow_of_error {error : FileError} (h : fs.resolve root = .error error) : fs.filesBelow root = [] := by
  rw [filesBelow, h]

/-- A walk finds each file once. -/
theorem nodup_filesBelow (htree : fs.IsTree) (root : Path) : (fs.filesBelow root).Nodup := by
  rw [filesBelow]
  cases fs.resolve root with
  | error error => exact List.nodup_nil
  | ok top =>
    refine List.pairwise_filterMap.mpr ((List.pairwise_map.mp htree.nodup).imp ?_)
    rintro ⟨place, node⟩ ⟨place', node'⟩ hne names hnames names' hnames' rfl
    cases node with
    | directory => cases hnames
    | file bytes =>
      cases node' with
      | directory => cases hnames'
      | file bytes' =>
        simp only [Option.ite_none_right_eq_some, Option.some.injEq, List.isPrefixOf_iff_prefix] at hnames hnames'
        obtain ⟨⟨behind, rfl⟩, rfl⟩ := hnames
        obtain ⟨⟨behind', rfl⟩, hbehind⟩ := hnames'
        rw [List.drop_left, List.drop_left] at hbehind
        exact hne (by rw [hbehind])

theorem place_mem (htree : fs.IsTree) (htop : fs.resolve root = .ok top) (h : names ∈ fs.filesBelow root) :
    top ++ names ∈ fs.nodes.map (·.1) := by
  obtain ⟨bytes, hnode⟩ := (htree.mem_filesBelow htop).mp h
  refine List.mem_map.mpr ⟨_, mem_nodes ?_ hnode, rfl⟩
  intro hnil
  rw [hnil, node?, List.isEmpty_nil, if_pos rfl] at hnode
  cases hnode

theorem isName_of_mem_filesBelow (htree : fs.IsTree) (htop : fs.resolve root = .ok top)
    (h : names ∈ fs.filesBelow root) : ∀ name ∈ names, IsName name :=
  fun name hname => htree.isName _ (htree.place_mem htop h) name (List.mem_append_right _ hname)

/-- Behind the directory of a walk there are directories, and then the file. -/
theorem node?_append_take (htree : fs.IsTree) (htop : fs.resolve root = .ok top) (h : names ∈ fs.filesBelow root)
    {k : Nat} (hk : k < names.length) : fs.node? (top ++ names.take k) = some .directory := by
  have hlength : top.length + k < (top ++ names).length := by
    rw [List.length_append]
    omega
  have hdirectory := htree.node?_take (htree.place_mem htop h) hlength
  rwa [List.take_length_add_append] at hdirectory

end IsTree

end FileSystem

namespace PathFilter

/-! ### Ignore files -/

/-- A directory has one ignore file, by whatever path it is read. Only a failure names the path. -/
theorem patternsIn_of_components_eq {fs : FileSystem} {p q : Path} {name : String} {patterns : List FilterPattern}
    (h : p.components = q.components) (hp : patternsIn fs p name = .ok patterns) :
    patternsIn fs q name = .ok patterns := by
  have hfile : fs.isFile (p.join name) = fs.isFile (q.join name) := by
    rw [FileSystem.isFile, FileSystem.isFile, FileSystem.lookup?, FileSystem.lookup?, fs.resolve_join h]
  have hread : fs.readText (p.join name) = fs.readText (q.join name) := by
    rw [FileSystem.readText, FileSystem.readText, FileSystem.read, FileSystem.read, fs.resolve_join h]
  rw [patternsIn, hfile, hread] at hp
  rw [patternsIn]
  split
  · rename_i htrue
    rw [if_pos htrue] at hp
    cases htext : fs.readText (q.join name) with
    | ok text =>
      rw [htext] at hp
      exact hp
    | error error =>
      rw [htext] at hp
      cases hp
  · rename_i hfalse
    rwa [if_neg hfalse] at hp

end PathFilter

end CSharpStyle
