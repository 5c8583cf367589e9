import CSharpStyle.Proofs.Discovery.Paths
import CSharpStyle.Proofs.Findings.Independence

/-!
# Excluded directories

A pattern is compared with a path and with the directories that lead to it. Further down there are more of these and
none less, so that a pattern that matches a directory matches all that is in it, and a filter whose patterns include
nothing again excludes it. The paths are relative ones that are written by their names alone.

* `Path.ancestors_ofNames_concat`: the directories that lead to a path.
* `FilterPattern.matchesPath_of_directoriesOnly`: a pattern for directories looks at the directory of a path.
* `PathFilter.excluded_with_directory`: what is below an excluded path is excluded.
-/

namespace CSharpStyle

open PathFilter

namespace Path

variable {names : List String} {name : String}

/-! ### The directories that lead to a path -/

theorem areReadable_names (hnames : ∀ name ∈ names, IsName name) : AreReadable false (names.map String.toList) where
  noSeparator := by
    intro piece hpiece
    obtain ⟨name, hname, rfl⟩ := List.mem_map.mp hpiece
    exact (hnames name hname).noSeparator
  head := by
    intro _ hhead
    obtain ⟨name, hname, hnil⟩ := List.mem_map.mp (List.mem_of_mem_head? hhead)
    exact (hnames name hname).ne_nil hnil

theorem components_ofNames (hnames : ∀ name ∈ names, IsName name) : (ofNames names).components = names.map .name := by
  have hhead : (names.map String.toList).head? ≠ some ['.'] := by
    intro hhead
    obtain ⟨name, hname, hcurrent⟩ := List.mem_map.mp (List.mem_of_mem_head? hhead)
    exact (hnames name hname).ne_current hcurrent
  rw [ofNames, components_ofPieces (areReadable_names hnames), componentsOf, if_neg Bool.false_ne_true, if_neg hhead,
    List.nil_append, IsName.filterMap_componentOf? hnames]

/-- Names have nothing behind them that is no component. -/
theorem trimEnd_names (hnames : ∀ name ∈ names, IsName name) :
    trimEnd false (names.map String.toList) = names.map String.toList := by
  obtain ⟨-, rest, hcurrent, -⟩ | ⟨-, htrim⟩ := trimEnd_cases false (names.map String.toList)
  · have hmem : ['.'] ∈ names.map String.toList := hcurrent ▸ List.mem_cons_self ..
    obtain ⟨name, hname, heq⟩ := List.mem_map.mp hmem
    exact absurd heq (hnames name hname).ne_current
  · simpa using htrim.trans (by simpa using rdropWhile_names hnames (.inl rfl))

theorem parent?_ofNames_nil : (ofNames []).parent? = none := rfl

theorem parent?_ofNames_concat (hnames : ∀ n ∈ names ++ [name], IsName n) :
    (ofNames (names ++ [name])).parent? = some (ofNames names) := by
  have hbefore : ∀ n ∈ names, IsName n := fun n hn => hnames n (List.mem_append_left _ hn)
  have hreadable := areReadable_names hnames
  have hpieces : (ofNames (names ++ [name])).pieces = (names ++ [name]).map String.toList := by
    rw [ofNames, pieces_ofPieces hreadable, if_neg (by simp)]
  have hrooted : (ofNames (names ++ [name])).isRooted = false := isRooted_ofPieces hreadable
  have htrim := trimEnd_names hnames
  rw [parent?, hrooted, hpieces, htrim]
  split
  · rename_i hnil
    simp at hnil
  · rw [List.map_append, List.map_singleton, List.dropLast_concat, trimEnd_names hbefore, ofNames]

theorem ancestors_ofNames_nil : (ofNames []).ancestors = [ofNames []] := rfl

/-- The directories that lead to a path are its parent and those that lead to its parent. -/
theorem ancestors_ofNames_concat (hnames : ∀ n ∈ names ++ [name], IsName n) :
    (ofNames (names ++ [name])).ancestors = ofNames (names ++ [name]) :: (ofNames names).ancestors := by
  have hbefore : ∀ n ∈ names, IsName n := fun n hn => hnames n (List.mem_append_left _ hn)
  rw [ancestors, ancestors, components_ofNames hnames, components_ofNames hbefore, List.map_append, List.length_append,
    List.map_singleton, List.length_singleton, ancestorsWithin, parent?_ofNames_concat hnames, Option.elim_some]

theorem isEmpty_text_ofNames_concat (hnames : ∀ n ∈ names ++ [name], IsName n) :
    (ofNames (names ++ [name])).text.isEmpty = false := by
  have hcomponents := components_ofNames hnames
  rw [← Bool.not_eq_true, String.isEmpty_iff]
  intro hempty
  rw [components, hempty] at hcomponents
  simp [splitOnChar] at hcomponents

end Path

namespace FilterPattern

open CSharpStyle.Path

variable {names below : List String} {name : String} (f : FilterPattern)

/-! ### What a pattern is compared with -/

/-- The same pattern, but for files as well as for directories. -/
def withFiles : FilterPattern := { f with directoriesOnly := false }

theorem candidates_ofNames_nil : f.candidates (ofNames []) = [] := by
  have hempty : (ofNames []).text.isEmpty = true := rfl
  simp [candidates, ancestors_ofNames_nil, hempty]

/-- The path itself comes first, unless the pattern is for directories only. -/
theorem candidates_ofNames_concat (hnames : ∀ n ∈ names ++ [name], IsName n) :
    f.candidates (ofNames (names ++ [name])) =
      (if f.directoriesOnly then [] else [ofNames (names ++ [name])]) ++ f.withFiles.candidates (ofNames names) := by
  have hpath := isEmpty_text_ofNames_concat hnames
  simp only [candidates, withFiles, ancestors_ofNames_concat hnames]
  cases f.directoriesOnly <;> simp [hpath]

theorem matchesPath_ofNames_nil : f.matchesPath (ofNames []) = false := by
  rw [matchesPath, candidates_ofNames_nil, List.any_nil]

/-- A pattern matches a path, or else its directory; one for directories does not match the path itself. -/
theorem matchesPath_ofNames_concat (hnames : ∀ n ∈ names ++ [name], IsName n) :
    f.matchesPath (ofNames (names ++ [name])) =
      (!f.directoriesOnly && f.matchesExactly (ofNames (names ++ [name])) ||
        f.withFiles.matchesPath (ofNames names)) := by
  have hexactly : f.withFiles.matchesExactly = f.matchesExactly := rfl
  rw [matchesPath, matchesPath, candidates_ofNames_concat f hnames, List.any_append, hexactly]
  cases f.directoriesOnly <;> simp

/-- A pattern for directories looks at the directory of a path. -/
theorem matchesPath_of_directoriesOnly (hnames : ∀ n ∈ names, IsName n) (hdirectories : f.directoriesOnly) :
    f.matchesPath (ofNames names) = (ofNames names).parent?.any f.withFiles.matchesPath := by
  cases names using List.reverseRecOn with
  | nil => rw [matchesPath_ofNames_nil, parent?_ofNames_nil, Option.any_none]
  | append_singleton names name =>
    rw [matchesPath_ofNames_concat f hnames, hdirectories, parent?_ofNames_concat hnames, Option.any_some,
      Bool.not_true, Bool.false_and, Bool.false_or]

theorem matchesPath_withFiles {p : Path} (h : f.matchesPath p) : f.withFiles.matchesPath p := by
  obtain ⟨q, hq, hmatches⟩ := List.any_eq_true.mp h
  refine List.any_eq_true.mpr ⟨q, ?_, hmatches⟩
  unfold candidates at hq
  split at hq
  · exact List.mem_of_mem_tail hq
  · exact hq

theorem matchesPath_concat (hnames : ∀ n ∈ names ++ [name], IsName n) (h : f.matchesPath (ofNames names)) :
    f.matchesPath (ofNames (names ++ [name])) := by
  rw [matchesPath_ofNames_concat f hnames, matchesPath_withFiles f h, Bool.or_true]

/-- A pattern that matches a path matches all that is below it. -/
theorem matchesPath_append (hnames : ∀ n ∈ names ++ below, IsName n) (h : f.matchesPath (ofNames names)) :
    f.matchesPath (ofNames (names ++ below)) := by
  induction below using List.reverseRecOn with
  | nil => rwa [List.append_nil]
  | append_singleton below name ih =>
    rw [← List.append_assoc] at hnames ⊢
    exact f.matchesPath_concat hnames (ih fun n hn => hnames n (List.mem_append_left _ hn))

/-! ### Patterns that include again -/

/-- A pattern includes again what others exclude if its text begins with the mark `!`. -/
theorem includes_of_parse {text : String} {g : FilterPattern} (h : parse text = .ok g) :
    g.includes ↔ text.toList.head? = some '!' := by
  have hmark : (splitMark text.toList).1 ↔ text.toList.head? = some '!' := by
    unfold splitMark
    split
    · rename_i heq
      simp [heq]
    · rename_i hother
      simp only [Bool.false_eq_true, false_iff]
      intro hhead
      obtain ⟨rest, hrest⟩ := List.head?_eq_some_iff.mp hhead
      exact hother rest hrest
  rw [parse] at h
  split at h
  rename_i includes rest hsplit
  rw [hsplit] at hmark
  split at h
  · cases h
    exact hmark
  · cases h

end FilterPattern

namespace PathFilter

open CSharpStyle.Path

/-- When no pattern includes again what others exclude, a filter excludes a path if any of them matches. -/
theorem excludes_iff {f : PathFilter} (hincludes : ∀ g ∈ f.patterns, g.includes = false) (p : Path) :
    f.excludes p ↔ ∃ g ∈ f.patterns, g.matchesPath p := by
  rw [excludes, lastMatch?]
  cases hfind : f.patterns.reverse.find? (·.matchesPath p) with
  | none => simpa using hfind
  | some g =>
    have hmem : g ∈ f.patterns := List.mem_reverse.mp (List.mem_of_find?_eq_some hfind)
    have hmatches : g.matchesPath p := by simpa using List.find?_some hfind
    simp only [Option.map_some, Option.getD_some, hincludes g hmem, Bool.not_false, true_iff]
    exact ⟨g, hmem, hmatches⟩

theorem includes_of_mapM_parse {texts : List String} {patterns : List FilterPattern}
    (h : texts.mapM FilterPattern.parse = .ok patterns) (hmarks : ∀ text ∈ texts, text.toList.head? ≠ some '!') :
    ∀ g ∈ patterns, g.includes = false := by
  have hparsed := Except.mapM_eq_ok_iff.mp h
  clear h
  induction hparsed with
  | nil => exact List.forall_mem_nil _
  | cons hparse _ ih =>
    obtain ⟨htext, hrest⟩ := List.forall_mem_cons.mp hmarks
    refine List.forall_mem_cons.mpr ⟨Bool.eq_false_iff.mpr fun hincludes => ?_, ih hrest⟩
    exact htext ((FilterPattern.includes_of_parse hparse).mp hincludes)

/-- What matches a path matches all that is below it, and a pattern for directories only is the pattern without that
condition for the directory of the path. A filter without patterns that begin with `!` therefore excludes all that is
below an excluded path. -/
theorem excluded_with_directory {names below : List String} (hnames : ∀ name ∈ names ++ below, IsName name) :
    (∀ f : FilterPattern, f.matchesPath (ofNames names) → f.matchesPath (ofNames (names ++ below))) ∧
    (∀ f : FilterPattern, f.directoriesOnly →
      f.matchesPath (ofNames names) = (ofNames names).parent?.any f.withFiles.matchesPath ∧
        (names.length = 1 → f.matchesPath (ofNames names) = false)) ∧
    (∀ f : PathFilter, (∀ g ∈ f.patterns, g.includes = false) →
      f.excludes (ofNames names) → f.excludes (ofNames (names ++ below))) ∧
    ∀ (f : PathFilter) (texts : List String), texts.mapM FilterPattern.parse = .ok f.patterns →
      (∀ text ∈ texts, text.toList.head? ≠ some '!') → ∀ g ∈ f.patterns, g.includes = false := by
  have hbefore : ∀ name ∈ names, IsName name := fun name hname => hnames name (List.mem_append_left _ hname)
  refine ⟨fun f h => f.matchesPath_append hnames h, fun f hdirectories => ⟨?_, fun hone => ?_⟩,
    fun f hincludes h => ?_, fun f texts h hmarks => includes_of_mapM_parse h hmarks⟩
  · exact f.matchesPath_of_directoriesOnly hbefore hdirectories
  · obtain ⟨name, rfl⟩ := List.length_eq_one_iff.mp hone
    have hparent : (ofNames [name]).parent? = some (ofNames []) := @parent?_ofNames_concat [] name hbefore
    rw [f.matchesPath_of_directoriesOnly hbefore hdirectories, hparent, Option.any_some,
      FilterPattern.matchesPath_ofNames_nil]
  · obtain ⟨g, hg, hmatches⟩ := (excludes_iff hincludes _).mp h
    exact (excludes_iff hincludes _).mpr ⟨g, hg, g.matchesPath_append hnames hmatches⟩

/-- The pattern `bin/` leaves a file of that name alone, and excludes all that is in a directory of that name. -/
theorem excluded_with_directory_bin :
    ∃ f, ofPatterns ["/docs", "bin/"] none = .ok f ∧ f.excludes (ofNames ["src", "bin"]) = false ∧
      f.excludes (ofNames ["src", "bin", "Debug"]) ∧
      f.excludes (ofNames ["src", "bin", "Debug", "net8.0", "App.cs"]) := by
  have hnames : ∀ name ∈ ["src", "bin", "Debug"] ++ ["net8.0", "App.cs"], IsName name := by decide
  obtain ⟨-, -, hexcludes, hincludes⟩ := excluded_with_directory hnames
  refine ⟨_, rfl, by decide, by decide, ?_⟩
  refine hexcludes _ (hincludes _ ["/docs", "bin/"] rfl (by decide)) (by decide)

end PathFilter

end CSharpStyle
