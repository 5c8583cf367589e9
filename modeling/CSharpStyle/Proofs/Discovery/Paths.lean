import CSharpStyle.Workspace.PathFilter
import Mathlib.Data.List.DropRight

/-!
# Paths below a directory

A path is read piece by piece, and pieces that are no component can stand between those that are. The paths that a walk
makes have none behind the root of the walk.

* `Path.components_parent?`: the parent of a path has all of its components but the last.
* `PathFilter.components_below`: the components of a path that a walk makes.
* `PathFilter.map_components_directoriesTo`: the directories on the way to it.
* `PathFilter.relativeTo?_below`: the path as seen from one of them.
-/

namespace CSharpStyle

/-! ### Pieces between separators -/

section Pieces

variable {c : Char}

theorem splitOnChar_ne_nil (text : List Char) : splitOnChar c text ≠ [] := by
  cases text with
  | nil => exact List.cons_ne_nil _ _
  | cons d rest =>
    rw [splitOnChar]
    split
    · exact List.cons_ne_nil _ _
    · split <;> exact List.cons_ne_nil _ _

theorem splitOnChar_cons_of_ne {d : Char} (h : d ≠ c) (text : List Char) :
    ∃ piece pieces, splitOnChar c text = piece :: pieces ∧ splitOnChar c (d :: text) = (d :: piece) :: pieces := by
  obtain ⟨piece, pieces, hsplit⟩ := List.exists_cons_of_ne_nil (splitOnChar_ne_nil (c := c) text)
  exact ⟨piece, pieces, hsplit, by rw [splitOnChar, if_neg h, hsplit]⟩

theorem splitOnChar_append (first second : List Char) :
    splitOnChar c (first ++ c :: second) = splitOnChar c first ++ splitOnChar c second := by
  induction first with
  | nil =>
    change splitOnChar c (c :: second) = [] :: splitOnChar c second
    rw [splitOnChar, if_pos rfl]
  | cons d first ih =>
    by_cases hd : d = c
    · rw [List.cons_append, splitOnChar, if_pos hd, ih, splitOnChar, if_pos hd, List.cons_append]
    · obtain ⟨piece, pieces, hfirst, hsplit⟩ := splitOnChar_cons_of_ne hd first
      rw [hfirst, List.cons_append] at ih
      rw [List.cons_append, splitOnChar, if_neg hd, ih, hsplit, List.cons_append]

theorem splitOnChar_of_notMem {text : List Char} (h : c ∉ text) : splitOnChar c text = [text] := by
  induction text with
  | nil => rfl
  | cons d text ih =>
    obtain ⟨hd, htext⟩ := List.ne_and_not_mem_of_not_mem_cons h
    rw [splitOnChar, if_neg (Ne.symm hd), ih htext]

theorem notMem_of_mem_splitOnChar {text piece : List Char} (h : piece ∈ splitOnChar c text) : c ∉ piece := by
  induction text generalizing piece with
  | nil =>
    rw [splitOnChar, List.mem_singleton] at h
    exact h ▸ List.not_mem_nil
  | cons d text ih =>
    by_cases hd : d = c
    · rw [splitOnChar, if_pos hd, List.mem_cons] at h
      rcases h with rfl | h
      · exact List.not_mem_nil
      · exact ih h
    · obtain ⟨first, pieces, htext, hsplit⟩ := splitOnChar_cons_of_ne hd text
      rw [hsplit, List.mem_cons] at h
      rcases h with rfl | h
      · have hfirst : c ∉ first := ih (htext ▸ List.mem_cons_self ..)
        exact fun hmem => (List.mem_cons.mp hmem).elim (fun heq => hd heq.symm) hfirst
      · exact ih (htext ▸ List.mem_cons_of_mem _ h)

theorem splitOnChar_intercalate {pieces : List (List Char)} (hne : pieces ≠ [])
    (h : ∀ piece ∈ pieces, c ∉ piece) : splitOnChar c ([c].intercalate pieces) = pieces := by
  induction pieces with
  | nil => exact absurd rfl hne
  | cons piece pieces ih =>
    have hpiece : c ∉ piece := h piece (List.mem_cons_self ..)
    cases pieces with
    | nil =>
      rw [List.intercalate_singleton]
      exact splitOnChar_of_notMem hpiece
    | cons second pieces =>
      have hrest := ih (List.cons_ne_nil _ _) fun q hq => h q (List.mem_cons_of_mem _ hq)
      rw [List.intercalate_cons_cons, List.append_assoc, List.singleton_append, splitOnChar_append, hrest,
        splitOnChar_of_notMem hpiece]
      rfl

end Pieces

namespace Path

/-! ### Components of pieces -/

theorem componentOf?_eq_none {piece : List Char} : componentOf? piece = none ↔ isVoid piece := by
  rw [componentOf?]
  split
  · simp_all [isVoid]
  · split <;> simp_all [isVoid]

/-- The components of a path with these pieces behind its root, or without one. -/
def componentsOf (isRooted : Bool) (pieces : List (List Char)) : List PathComponent :=
  (if isRooted then [.root] else if pieces.head? = some ['.'] then [.current] else []) ++
    pieces.filterMap componentOf?

theorem text_of_componentOf? {piece : List Char} {component : PathComponent} (h : componentOf? piece = some component) :
    component.text.toList = piece ∧ component ≠ .root ∧ component ≠ .current := by
  rw [componentOf?] at h
  split at h
  · cases h
  · split at h
    · rename_i hparent
      cases h
      exact ⟨hparent.symm, PathComponent.noConfusion, PathComponent.noConfusion⟩
    · cases h
      exact ⟨String.toList_ofList, PathComponent.noConfusion, PathComponent.noConfusion⟩

theorem root_mem_componentsOf {isRooted : Bool} {pieces : List (List Char)} :
    .root ∈ componentsOf isRooted pieces ↔ isRooted = true := by
  have hpieces : .root ∉ pieces.filterMap componentOf? := by
    intro hmem
    obtain ⟨piece, -, hpiece⟩ := List.mem_filterMap.mp hmem
    exact (text_of_componentOf? hpiece).2.1 rfl
  rw [componentsOf, List.mem_append, or_iff_left hpieces]
  cases isRooted with
  | true => simp
  | false =>
    rw [if_neg Bool.false_ne_true]
    split <;> simp

theorem exists_of_isRooted {p : Path} (h : p.isRooted = true) :
    ∃ rest, p.text.toList = '/' :: rest ∧ p.pieces = splitOnChar '/' rest := by
  rw [pieces, if_pos h]
  rw [isRooted] at h
  cases htext : p.text.toList with
  | nil => simp [htext] at h
  | cons c rest =>
    have hc : c = '/' := by simpa [htext] using h
    exact ⟨rest, by rw [hc], rfl⟩

theorem pieces_of_not_isRooted {p : Path} (h : p.isRooted = false) : p.pieces = splitOnChar '/' p.text.toList := by
  rw [pieces, h, if_neg Bool.false_ne_true]

/-- Only the empty path begins with an empty piece, when there is no root before it. -/
theorem exists_of_not_isRooted {p : Path} (h : p.isRooted = false) :
    p.text.toList = [] ∧ p.pieces = [[]] ∨ ∃ first rest, p.pieces = first :: rest ∧ first ≠ [] := by
  rw [pieces_of_not_isRooted h]
  rw [isRooted] at h
  cases htext : p.text.toList with
  | nil => exact .inl ⟨rfl, rfl⟩
  | cons c text =>
    have hc : c ≠ '/' := by simpa [htext] using h
    obtain ⟨piece, pieces, -, hsplit⟩ := splitOnChar_cons_of_ne hc text
    exact .inr ⟨c :: piece, pieces, hsplit, List.cons_ne_nil _ _⟩

theorem components_eq (p : Path) : p.components = componentsOf p.isRooted p.pieces := by
  rw [components, componentsOf]
  cases hrooted : p.isRooted with
  | true =>
    obtain ⟨rest, htext, hpieces⟩ := exists_of_isRooted hrooted
    have hne := splitOnChar_ne_nil (c := '/') rest
    simp [htext, hpieces, splitOnChar, hne]
  | false =>
    rw [← pieces_of_not_isRooted hrooted]
    rcases exists_of_not_isRooted hrooted with ⟨-, hpieces⟩ | ⟨first, rest, hpieces, hfirst⟩
    · rw [hpieces]
      rfl
    · rw [hpieces]
      by_cases hcurrent : first = ['.']
      · subst hcurrent
        rfl
      · cases hcomponent : componentOf? first <;> simp [hfirst, hcurrent, hcomponent]

/-! ### The end of a path -/

/-- What stands at the end of a path and is no component. -/
theorem trimEnd_cases (isRooted : Bool) (pieces : List (List Char)) :
    (isRooted = false ∧ ∃ rest, pieces = ['.'] :: rest ∧
      trimEnd isRooted pieces = ['.'] :: rest.rdropWhile isVoid) ∨
    ((isRooted = true ∨ pieces.head? ≠ some ['.']) ∧ trimEnd isRooted pieces = pieces.rdropWhile isVoid) := by
  unfold trimEnd
  split
  · exact .inl ⟨rfl, _, rfl, rfl⟩
  · rename_i hnot
    refine .inr ⟨?_, rfl⟩
    cases isRooted with
    | true => exact .inl rfl
    | false =>
      refine .inr fun hhead => ?_
      obtain ⟨rest, rfl⟩ := List.head?_eq_some_iff.mp hhead
      exact hnot _ rfl rfl

theorem trimEnd_true (pieces : List (List Char)) : trimEnd true pieces = pieces.rdropWhile isVoid := by
  obtain ⟨hfalse, -⟩ | ⟨-, htrim⟩ := trimEnd_cases true pieces
  · cases hfalse
  · exact htrim

theorem trimEnd_isBeginning (isRooted : Bool) (pieces : List (List Char)) : trimEnd isRooted pieces <+: pieces := by
  obtain ⟨-, rest, rfl, htrim⟩ | ⟨-, htrim⟩ := trimEnd_cases isRooted pieces
  · rw [htrim]
    exact (List.prefix_cons_inj _).mpr (List.rdropWhile_prefix _ _)
  · rw [htrim]
    exact List.rdropWhile_prefix _ _

theorem filterMap_rdropWhile (pieces : List (List Char)) :
    (pieces.rdropWhile isVoid).filterMap componentOf? = pieces.filterMap componentOf? := by
  induction pieces using List.reverseRecOn with
  | nil => rfl
  | append_singleton pieces piece ih =>
    by_cases hvoid : isVoid piece
    · rw [List.rdropWhile_concat_pos _ _ _ hvoid, ih, List.filterMap_append,
        List.filterMap_cons_none (componentOf?_eq_none.mpr hvoid), List.filterMap_nil, List.append_nil]
    · rw [List.rdropWhile_concat_neg _ _ _ hvoid]

theorem componentsOf_trimEnd (isRooted : Bool) (pieces : List (List Char)) :
    componentsOf isRooted (trimEnd isRooted pieces) = componentsOf isRooted pieces := by
  obtain ⟨rfl, rest, rfl, htrim⟩ | ⟨hlead, htrim⟩ := trimEnd_cases isRooted pieces
  · rw [htrim]
    simp [componentsOf, List.filterMap_cons, filterMap_rdropWhile]
  · rw [componentsOf, componentsOf, htrim, filterMap_rdropWhile]
    congr 1
    rcases hlead with rfl | hhead
    · rfl
    · have hhead' : (pieces.rdropWhile isVoid).head? ≠ some ['.'] := by
        intro h
        obtain ⟨rest, hrest⟩ := List.head?_eq_some_iff.mp h
        obtain ⟨behind, hbehind⟩ := List.rdropWhile_prefix isVoid pieces
        rw [← hbehind, hrest] at hhead
        exact hhead rfl
      rw [if_neg hhead, if_neg hhead']

/-- A path that ends with a component loses it with its last piece. -/
theorem componentsOf_dropLast {isRooted : Bool} {pieces : List (List Char)} (hne : trimEnd isRooted pieces ≠ []) :
    componentsOf isRooted (trimEnd isRooted pieces).dropLast = (componentsOf isRooted pieces).dropLast := by
  rw [← componentsOf_trimEnd isRooted pieces]
  have hlast : trimEnd isRooted pieces = [['.']] ∧ isRooted = false ∨
      ∃ before last, trimEnd isRooted pieces = before ++ [last] ∧ ¬isVoid last := by
    obtain ⟨hrooted, rest, rfl, htrim⟩ | ⟨-, htrim⟩ := trimEnd_cases isRooted pieces
    · by_cases hrest : rest.rdropWhile isVoid = []
      · exact .inl ⟨by rw [htrim, hrest], hrooted⟩
      · refine .inr ⟨['.'] :: (rest.rdropWhile isVoid).dropLast, (rest.rdropWhile isVoid).getLast hrest, ?_,
          List.rdropWhile_last_not _ _ hrest⟩
        rw [htrim, List.cons_append, List.dropLast_concat_getLast]
    · rw [htrim] at hne ⊢
      exact .inr ⟨_, _, (List.dropLast_concat_getLast hne).symm, List.rdropWhile_last_not _ _ hne⟩
  rcases hlast with ⟨htrim, rfl⟩ | ⟨before, last, htrim, hlast⟩
  · rw [htrim]
    rfl
  · rw [htrim, List.dropLast_concat]
    obtain ⟨component, hcomponent⟩ := Option.ne_none_iff_exists'.mp (mt componentOf?_eq_none.mp hlast)
    have hcurrent : last ≠ ['.'] := fun h => hlast (h ▸ rfl)
    rw [componentsOf, componentsOf, List.filterMap_append, List.filterMap_cons_some hcomponent, List.filterMap_nil,
      ← List.append_assoc, List.dropLast_concat]
    congr 1
    cases before with
    | nil => simp [hcurrent]
    | cons first before => rfl

/-! ### Paths of pieces -/

variable {isRooted : Bool} {pieces : List (List Char)}

/-- The pieces make a path that is read as they were meant. -/
structure AreReadable (isRooted : Bool) (pieces : List (List Char)) : Prop where
  noSeparator : ∀ piece ∈ pieces, '/' ∉ piece
  head : isRooted = false → pieces.head? ≠ some []

theorem toList_ofPieces (isRooted : Bool) (pieces : List (List Char)) :
    (ofPieces isRooted pieces).text.toList = (if isRooted then ['/'] else []) ++ ['/'].intercalate pieces := by
  rw [ofPieces, String.toList_ofList]

theorem isRooted_ofPieces (h : AreReadable isRooted pieces) : (ofPieces isRooted pieces).isRooted = isRooted := by
  rw [Path.isRooted, toList_ofPieces]
  cases isRooted with
  | true => rfl
  | false =>
    cases pieces with
    | nil => rfl
    | cons first rest =>
      cases first with
      | nil => exact absurd rfl (h.head rfl)
      | cons c first =>
        have hc : c ≠ '/' := fun hc => h.noSeparator _ (List.mem_cons_self ..) (hc ▸ List.mem_cons_self ..)
        cases rest with
        | nil => simpa using hc
        | cons second rest => simpa [List.intercalate_cons_cons] using hc

theorem pieces_ofPieces (h : AreReadable isRooted pieces) :
    (ofPieces isRooted pieces).pieces = if pieces = [] then [[]] else pieces := by
  have hdrop : (if isRooted then (ofPieces isRooted pieces).text.toList.tail
      else (ofPieces isRooted pieces).text.toList) = ['/'].intercalate pieces := by
    rw [toList_ofPieces]
    cases isRooted <;> rfl
  rw [Path.pieces, isRooted_ofPieces h, hdrop]
  split
  · rename_i hnil
    rw [hnil]
    rfl
  · rename_i hne
    exact splitOnChar_intercalate hne h.noSeparator

theorem components_ofPieces (h : AreReadable isRooted pieces) :
    (ofPieces isRooted pieces).components = componentsOf isRooted pieces := by
  rw [components_eq, isRooted_ofPieces h, pieces_ofPieces h]
  split
  · rename_i hnil
    rw [hnil]
    rfl
  · rfl

theorem AreReadable.of_beginning {other : List (List Char)} (h : AreReadable isRooted pieces)
    (hbegin : other <+: pieces) : AreReadable isRooted other where
  noSeparator piece hpiece := h.noSeparator piece (hbegin.subset hpiece)
  head hrooted hhead := by
    obtain ⟨rest, rfl⟩ := List.head?_eq_some_iff.mp hhead
    obtain ⟨behind, rfl⟩ := hbegin
    exact h.head hrooted rfl

/-- The pieces of a path, unless it is empty. -/
theorem areReadable_pieces (p : Path) (h : p.text.toList ≠ []) : AreReadable p.isRooted p.pieces where
  noSeparator _ hpiece := notMem_of_mem_splitOnChar hpiece
  head hrooted := by
    rcases exists_of_not_isRooted hrooted with ⟨htext, -⟩ | ⟨first, rest, hpieces, hfirst⟩
    · exact absurd htext h
    · rw [hpieces]
      exact fun hhead => hfirst (Option.some.inj hhead)

/-! ### Parents -/

theorem components_parent? {p q : Path} (h : p.parent? = some q) : q.components = p.components.dropLast := by
  rw [parent?] at h
  split at h
  · cases h
  · rename_i hne
    have htext : p.text.toList ≠ [] := by
      intro hnil
      refine hne ?_
      simp [Path.pieces, Path.isRooted, hnil, splitOnChar, trimEnd, isVoid]
    have hreadable : AreReadable p.isRooted (trimEnd p.isRooted (trimEnd p.isRooted p.pieces).dropLast) :=
      (areReadable_pieces p htext).of_beginning
        ((trimEnd_isBeginning _ _).trans ((List.dropLast_prefix _).trans (trimEnd_isBeginning _ _)))
    rw [← Option.some.inj h, components_ofPieces hreadable, componentsOf_trimEnd, componentsOf_dropLast hne,
      ← components_eq]

/-- Only the root and the empty path have no parent. -/
theorem components_of_parent?_eq_none {p : Path} (h : p.parent? = none) : p.components ⊆ [.root] := by
  rw [parent?] at h
  split at h
  · rename_i hnil
    rw [components_eq, ← componentsOf_trimEnd, hnil, componentsOf]
    cases p.isRooted <;> simp
  · cases h

/-! ### Joined paths -/

theorem pieces_of_toList {p : Path} {c : Char} {rest : List Char} (h : p.text.toList = c :: rest) :
    p.pieces = splitOnChar '/' (if c = '/' then rest else c :: rest) ∧ p.isRooted = (c == '/') := by
  have hrooted : p.isRooted = (c == '/') := by
    rw [Path.isRooted, h]
    rfl
  refine ⟨?_, hrooted⟩
  rw [Path.pieces, hrooted, h]
  simp only [beq_iff_eq, List.tail_cons]

theorem pieces_append {p q : Path} {behind : List Char} (hp : p.text.toList ≠ [])
    (hq : q.text.toList = p.text.toList ++ '/' :: behind) :
    q.pieces = p.pieces ++ splitOnChar '/' behind ∧ q.isRooted = p.isRooted := by
  obtain ⟨c, rest, htext⟩ := List.exists_cons_of_ne_nil hp
  rw [htext, List.cons_append] at hq
  obtain ⟨hpieces, hrooted⟩ := pieces_of_toList htext
  obtain ⟨hpieces', hrooted'⟩ := pieces_of_toList hq
  refine ⟨?_, hrooted'.trans hrooted.symm⟩
  rw [hpieces', hpieces]
  split
  · exact splitOnChar_append rest behind
  · exact splitOnChar_append (c :: rest) behind

/-- The pieces of a path without the empty one behind a separator at its end. -/
def stem (p : Path) : List (List Char) :=
  if p.text.toList.getLast? = some '/' then p.pieces.dropLast else p.pieces

/-- A path that ends with a separator is the root, or another path with a separator behind it. -/
theorem exists_of_getLast? {p : Path} (h : p.text.toList.getLast? = some '/') :
    p.text.toList = ['/'] ∨ ∃ q : Path, q.text.toList ≠ [] ∧ p.text.toList = q.text.toList ++ ['/'] := by
  obtain ⟨before, hbefore⟩ := List.getLast?_eq_some_iff.mp h
  cases before with
  | nil => exact .inl hbefore
  | cons c before => exact .inr ⟨⟨String.ofList (c :: before)⟩, by simp, by simpa using hbefore⟩

theorem toList_join {p : Path} {inner : String} (hp : p.text.toList ≠ []) (hinner : inner.toList.head? ≠ some '/') :
    (p.join inner).text.toList =
      p.text.toList ++ (if p.text.toList.getLast? = some '/' then inner.toList else '/' :: inner.toList) := by
  have hempty : p.text.isEmpty = false := by
    rw [Bool.eq_false_iff]
    exact fun h => hp (by rw [String.isEmpty_iff.mp h]; rfl)
  rw [join, if_neg (by simpa using hinner), hempty, if_neg Bool.false_ne_true]
  by_cases hlast : p.text.toList.getLast? = some '/'
  · rw [if_pos (beq_iff_eq.mpr hlast), if_pos hlast, String.toList_append]
  · rw [if_neg (mt beq_iff_eq.mp hlast), if_neg hlast, String.toList_append, String.toList_append, List.append_assoc]
    rfl

theorem pieces_join {p : Path} {inner : String} (hp : p.text.toList ≠ []) (hinner : inner.toList.head? ≠ some '/') :
    (p.join inner).pieces = p.stem ++ splitOnChar '/' inner.toList ∧ (p.join inner).isRooted = p.isRooted := by
  have htext := toList_join hp hinner
  rw [stem]
  by_cases hlast : p.text.toList.getLast? = some '/'
  · rw [if_pos hlast] at htext ⊢
    rcases exists_of_getLast? hlast with hroot | ⟨q, hq, hpq⟩
    · obtain ⟨hpieces, hrooted⟩ := pieces_of_toList hroot
      rw [hroot] at htext
      obtain ⟨hpieces', hrooted'⟩ := pieces_of_toList htext
      rw [hpieces, hrooted, hpieces', hrooted']
      exact ⟨rfl, rfl⟩
    · obtain ⟨hpieces, hrooted⟩ := pieces_append hq hpq
      rw [hpq, List.append_assoc] at htext
      obtain ⟨hpieces', hrooted'⟩ := pieces_append hq htext
      rw [hpieces', hrooted', hpieces, hrooted]
      refine ⟨?_, rfl⟩
      rw [splitOnChar, List.dropLast_concat]
      rfl
  · rw [if_neg hlast] at htext ⊢
    exact pieces_append hp htext

theorem pieces_eq_stem (p : Path) : p.pieces = p.stem ∨ p.pieces = p.stem ++ [[]] := by
  rw [stem]
  split
  · rename_i hlast
    rcases exists_of_getLast? hlast with hroot | ⟨q, hq, hpq⟩
    · rw [(pieces_of_toList hroot).1]
      exact .inr rfl
    · rw [(pieces_append hq hpq).1, splitOnChar, List.dropLast_concat]
      exact .inr rfl
  · exact .inl rfl

theorem isRooted_or_stem_ne_nil (p : Path) : p.isRooted = true ∨ p.stem ≠ [] := by
  rw [stem]
  split
  · rename_i hlast
    rcases exists_of_getLast? hlast with hroot | ⟨q, hq, hpq⟩
    · exact .inl (pieces_of_toList hroot).2
    · rw [(pieces_append hq hpq).1, splitOnChar, List.dropLast_concat]
      exact .inr (splitOnChar_ne_nil _)
  · exact .inr (splitOnChar_ne_nil _)

theorem componentsOf_append {isRooted : Bool} {first : List (List Char)} (h : isRooted = true ∨ first ≠ [])
    (second : List (List Char)) :
    componentsOf isRooted (first ++ second) = componentsOf isRooted first ++ second.filterMap componentOf? := by
  rw [componentsOf, componentsOf, List.filterMap_append, ← List.append_assoc]
  congr 2
  rcases h with rfl | hfirst
  · rfl
  · rw [List.head?_append_of_ne_nil _ hfirst]

theorem components_eq_stem (p : Path) : p.components = componentsOf p.isRooted p.stem := by
  rw [components_eq]
  rcases pieces_eq_stem p with hpieces | hpieces
  · rw [hpieces]
  · rw [hpieces, componentsOf_append (isRooted_or_stem_ne_nil p)]
    exact List.append_nil _

/-- What an entry of a directory can be called. -/
structure IsName (name : String) : Prop where
  ne_nil : name.toList ≠ []
  noSeparator : '/' ∉ name.toList
  ne_current : name.toList ≠ ['.']
  ne_parent : name.toList ≠ ['.', '.']

instance (name : String) : Decidable (IsName name) :=
  decidable_of_iff (name.toList ≠ [] ∧ '/' ∉ name.toList ∧ name.toList ≠ ['.'] ∧ name.toList ≠ ['.', '.'])
    ⟨fun ⟨hne, hseparator, hcurrent, hparent⟩ => ⟨hne, hseparator, hcurrent, hparent⟩,
      fun h => ⟨h.ne_nil, h.noSeparator, h.ne_current, h.ne_parent⟩⟩

variable {name : String}

theorem IsName.componentOf? (h : IsName name) : componentOf? name.toList = some (.name name) := by
  rw [Path.componentOf?, if_neg (not_or.mpr ⟨h.ne_nil, h.ne_current⟩), if_neg h.ne_parent, String.ofList_toList]

theorem IsName.not_isVoid (h : IsName name) : isVoid name.toList = false := by
  simp [isVoid, h.ne_nil, h.ne_current]

theorem IsName.head?_ne (h : IsName name) : name.toList.head? ≠ some '/' :=
  fun hhead => h.noSeparator (List.mem_of_mem_head? hhead)

theorem IsName.filterMap_componentOf? {names : List String} (h : ∀ name ∈ names, IsName name) :
    (names.map String.toList).filterMap Path.componentOf? = names.map .name := by
  induction names with
  | nil => rfl
  | cons name names ih =>
    rw [List.map_cons, List.filterMap_cons_some (h name (List.mem_cons_self ..)).componentOf?,
      ih fun n hn => h n (List.mem_cons_of_mem _ hn), List.map_cons]

theorem IsName.toList_join_ne_nil {p : Path} (hp : p.text.toList ≠ []) (h : IsName name) :
    (p.join name).text.toList ≠ [] := by
  rw [toList_join hp h.head?_ne]
  exact List.append_ne_nil_of_left_ne_nil hp _

theorem IsName.stem_join {p : Path} (hp : p.text.toList ≠ []) (h : IsName name) :
    (p.join name).stem = p.stem ++ [name.toList] := by
  have hlast : (p.join name).text.toList.getLast? ≠ some '/' := by
    intro hlast
    rw [toList_join hp h.head?_ne, List.getLast?_append_of_ne_nil] at hlast
    · split at hlast
      · exact h.noSeparator (List.mem_of_getLast? hlast)
      · rw [List.getLast?_cons_of_ne_nil h.ne_nil] at hlast
        exact h.noSeparator (List.mem_of_getLast? hlast)
    · split
      · exact h.ne_nil
      · exact List.cons_ne_nil _ _
  rw [stem, if_neg hlast, (pieces_join hp h.head?_ne).1, splitOnChar_of_notMem h.noSeparator]

end Path

namespace PathFilter

open CSharpStyle.Path

/-! ### Paths that a walk makes -/

variable {root : Path} {names : List String}

theorem below_spec (hroot : root.text.toList ≠ []) (hnames : ∀ name ∈ names, IsName name) :
    (below root names).text.toList ≠ [] ∧ (below root names).isRooted = root.isRooted ∧
      (below root names).stem = root.stem ++ names.map String.toList := by
  induction names generalizing root with
  | nil => exact ⟨hroot, rfl, (List.append_nil _).symm⟩
  | cons name names ih =>
    have hname : IsName name := hnames name (List.mem_cons_self ..)
    obtain ⟨hne, hrooted, hstem⟩ := ih (hname.toList_join_ne_nil hroot)
      fun n hn => hnames n (List.mem_cons_of_mem _ hn)
    refine ⟨hne, hrooted.trans (pieces_join hroot hname.head?_ne).2, ?_⟩
    rw [hname.stem_join hroot, List.append_assoc] at hstem
    exact hstem

theorem components_below (hroot : root.text.toList ≠ []) (hnames : ∀ name ∈ names, IsName name) :
    (below root names).components = root.components ++ names.map .name := by
  obtain ⟨hne, hrooted, hstem⟩ := below_spec hroot hnames
  rw [components_eq_stem, hrooted, hstem, componentsOf_append (isRooted_or_stem_ne_nil root),
    IsName.filterMap_componentOf? hnames, components_eq_stem root]

/-! ### The directories on the way -/

theorem isWithin_iff {p base : Path} : p.isWithin base = true ↔ base.components <+: p.components := by
  rw [isWithin, List.isPrefixOf_iff_prefix]

theorem ancestorsWithin_eq_cons (n : Nat) (p : Path) :
    ∃ others, ancestorsWithin n p = p :: others := by
  cases n <;> exact ⟨_, rfl⟩

/-- The components of a path that is not empty. -/
theorem components_ne_nil (hroot : root.text.toList ≠ []) : root.components ≠ [] := by
  rw [components_eq]
  cases hrooted : root.isRooted with
  | true => exact List.cons_ne_nil _ _
  | false =>
    rcases exists_of_not_isRooted hrooted with ⟨htext, -⟩ | ⟨first, rest, hpieces, hfirst⟩
    · exact absurd htext hroot
    · rw [hpieces, componentsOf]
      by_cases hcurrent : first = ['.']
      · rw [hcurrent]
        exact List.cons_ne_nil _ _
      · have hvoid : ¬isVoid first := by simp [isVoid, hfirst, hcurrent]
        obtain ⟨component, hcomponent⟩ := Option.ne_none_iff_exists'.mp (mt componentOf?_eq_none.mp hvoid)
        rw [List.filterMap_cons_some hcomponent]
        exact List.append_ne_nil_of_right_ne_nil _ (List.cons_ne_nil _ _)

/-- Going up from a path below `root`, one comes by one directory for each name, and then leaves `root`. -/
theorem map_components_takeWhile (hroot : root.components ≠ []) {p : Path} {n : Nat}
    (hp : p.components = root.components ++ names.map .name) (hn : names.length ≤ n) :
    ((ancestorsWithin n p).takeWhile (·.isWithin root)).map components =
      (List.range (names.length + 1)).reverse.map fun k => root.components ++ (names.take k).map .name := by
  induction names using List.reverseRecOn generalizing p n with
  | nil =>
    have hwithin : p.isWithin root = true := isWithin_iff.mpr (hp ▸ List.prefix_append _ _)
    have hcomponents : p.components = root.components := by simpa using hp
    have hall : ((ancestorsWithin n p).takeWhile (·.isWithin root)) = [p] := by
      cases n with
      | zero => simp [ancestorsWithin, hwithin]
      | succ n =>
        rw [ancestorsWithin, List.takeWhile_cons_of_pos (p := fun r : Path => r.isWithin root) hwithin]
        cases hparent : p.parent? with
        | none => rfl
        | some q =>
          obtain ⟨others, hothers⟩ := ancestorsWithin_eq_cons n q
          have hq : ¬q.isWithin root = true := by
            rw [isWithin_iff, components_parent? hparent, hcomponents]
            intro hbegin
            have hlength := hbegin.length_le
            rw [List.length_dropLast] at hlength
            have := List.length_pos_iff.mpr hroot
            omega
          rw [Option.elim_some, hothers, List.takeWhile_cons_of_neg (p := fun r : Path => r.isWithin root) hq]
    simp [hall, hcomponents]
  | append_singleton names name ih =>
    rw [List.length_append, List.length_singleton] at hn
    obtain ⟨n, rfl⟩ : ∃ m, n = m + 1 := ⟨n - 1, by omega⟩
    have hwithin : p.isWithin root = true := isWithin_iff.mpr (hp ▸ List.prefix_append _ _)
    rw [ancestorsWithin, List.takeWhile_cons_of_pos (p := fun r : Path => r.isWithin root) hwithin, List.map_cons]
    cases hparent : p.parent? with
    | none =>
      have hname : .name name ∈ p.components := by simp [hp]
      simpa using components_of_parent?_eq_none hparent hname
    | some q =>
      have hq : q.components = root.components ++ names.map .name := by
        rw [components_parent? hparent, hp, List.map_append, ← List.append_assoc, List.map_singleton,
          List.dropLast_concat]
      rw [Option.elim_some, ih hq (by omega), List.length_append, List.length_singleton,
        List.range_succ (n := names.length + 1), List.reverse_append, List.reverse_singleton, List.singleton_append,
        List.map_cons, hp, List.take_of_length_le (by simp)]
      congr 1
      refine List.map_congr_left fun k hk => ?_
      rw [List.mem_reverse, List.mem_range] at hk
      rw [List.take_append_of_le_length (by omega)]

theorem map_components_directoriesTo (hroot : root.text.toList ≠ []) (hnames : ∀ name ∈ names, IsName name) :
    (directoriesTo root (below root names)).map components =
      (List.range names.length).map fun k => root.components ++ (names.take k).map .name := by
  have hbelow := components_below hroot hnames
  have hlength : names.length ≤ (below root names).components.length := by simp [hbelow]
  have hup := map_components_takeWhile (components_ne_nil hroot) hbelow hlength
  have hwithin : (below root names).isWithin root = true := isWithin_iff.mpr (hbelow ▸ List.prefix_append _ _)
  rw [directoriesTo, ancestors]
  obtain ⟨others, hothers⟩ := ancestorsWithin_eq_cons (below root names).components.length (below root names)
  rw [hothers, List.takeWhile_cons_of_pos (p := fun r : Path => r.isWithin root) hwithin, List.range_succ,
    List.reverse_append, List.reverse_singleton, List.singleton_append, List.map_cons, List.map_cons,
    List.cons.injEq] at hup
  rw [hothers, List.tail_cons, List.map_reverse, hup.2, ← List.map_reverse, List.reverse_reverse]

/-! ### Paths as seen from a directory -/

theorem dropComponents_append (k : Nat) (first second : List (List Char)) :
    dropComponents ((first.filterMap componentOf?).length + k) (first ++ second) = dropComponents k second := by
  induction first with
  | nil => rw [List.filterMap_nil, List.length_nil, Nat.zero_add, List.nil_append]
  | cons piece first ih =>
    by_cases hvoid : isVoid piece
    · rw [List.filterMap_cons_none (componentOf?_eq_none.mpr hvoid), List.cons_append]
      cases hcount : (first.filterMap componentOf?).length + k with
      | zero =>
        rw [hcount] at ih
        rw [← ih, dropComponents, dropComponents, List.dropWhile_cons_of_pos hvoid]
      | succ n =>
        rw [hcount] at ih
        rw [dropComponents, if_pos hvoid, ih]
    · obtain ⟨component, hcomponent⟩ := Option.ne_none_iff_exists'.mp (mt componentOf?_eq_none.mp hvoid)
      rw [List.filterMap_cons_some hcomponent, List.length_cons, List.cons_append, Nat.add_right_comm, dropComponents,
        if_neg hvoid, ih]

theorem rdropWhile_names {names : List String} (hnames : ∀ name ∈ names, IsName name) {behind : List (List Char)}
    (hbehind : behind = [] ∨ behind = [[]]) :
    (names.map String.toList ++ behind).rdropWhile isVoid = names.map String.toList := by
  have hself : (names.map String.toList).rdropWhile isVoid = names.map String.toList := by
    refine List.rdropWhile_eq_self_iff.mpr fun hne => ?_
    obtain ⟨name, hname, heq⟩ := List.mem_map.mp (List.getLast_mem hne)
    rw [← heq, (hnames name hname).not_isVoid]
    exact Bool.false_ne_true
  rcases hbehind with rfl | rfl
  · rw [List.append_nil, hself]
  · rw [List.rdropWhile_concat_pos _ _ _ rfl, hself]

theorem trimEnd_dropComponents {k : Nat} (hk : k ≤ names.length) (hnames : ∀ name ∈ names, IsName name)
    {behind : List (List Char)} (hbehind : behind = [] ∨ behind = [[]]) :
    trimEnd true (dropComponents k (names.map String.toList ++ behind)) = (names.drop k).map String.toList := by
  induction k generalizing names with
  | zero =>
    rw [trimEnd_true, dropComponents]
    cases names with
    | nil => rcases hbehind with rfl | rfl <;> rfl
    | cons name names =>
      have hvoid : ¬isVoid name.toList := by
        rw [(hnames name (List.mem_cons_self ..)).not_isVoid]
        exact Bool.false_ne_true
      rw [List.map_cons, List.cons_append, List.dropWhile_cons_of_neg hvoid, ← List.cons_append, ← List.map_cons,
        rdropWhile_names hnames hbehind, List.drop_zero]
  | succ k ih =>
    cases names with
    | nil => exact absurd hk (Nat.not_succ_le_zero k)
    | cons name names =>
      rw [List.map_cons, List.cons_append, dropComponents, (hnames name (List.mem_cons_self ..)).not_isVoid,
        if_neg Bool.false_ne_true, List.drop_succ_cons]
      exact ih (Nat.le_of_succ_le_succ hk) fun n hn => hnames n (List.mem_cons_of_mem _ hn)

/-- The relative path by which some names lead to a file. -/
def ofNames (names : List String) : Path := ofPieces false (names.map String.toList)

/-- As seen from a directory, however that is written, a path that a walk makes has just the names behind it. -/
theorem relativeTo?_below (hroot : root.text.toList ≠ []) (hnames : ∀ name ∈ names, IsName name) {k : Nat}
    (hk : k ≤ names.length) {q : Path} (hq : q.components = root.components ++ (names.take k).map .name) :
    (below root names).relativeTo? q = some (ofNames (names.drop k)) := by
  obtain ⟨hne, hrooted, hstem⟩ := below_spec hroot hnames
  have hwithin : (below root names).isWithin q = true := by
    rw [isWithin_iff, hq, components_below hroot hnames]
    exact (List.prefix_append_right_inj _).mpr ((List.take_prefix _ _).map _)
  obtain ⟨behind, hbehind, hpieces⟩ : ∃ behind, (behind = [] ∨ behind = [[]]) ∧
      (below root names).pieces = root.stem ++ (names.map String.toList ++ behind) := by
    rcases pieces_eq_stem (below root names) with h | h
    · exact ⟨[], .inl rfl, by rw [h, hstem, List.append_nil]⟩
    · exact ⟨[[]], .inr rfl, by rw [h, hstem, List.append_assoc]⟩
  have hlength : ((names.take k).map PathComponent.name).length = k := by simp [hk]
  -- what is left behind the components of `q`, when its first piece is not counted or is
  have hrest (before : List (List Char)) :
      trimEnd true (dropComponents ((before.filterMap componentOf? ++ (names.take k).map PathComponent.name).length)
        (before ++ (names.map String.toList ++ behind))) = (names.drop k).map String.toList := by
    rw [List.length_append, hlength, dropComponents_append, trimEnd_dropComponents hk hnames hbehind]
  rw [relativeTo?, if_pos hwithin]
  rw [components_eq_stem root, componentsOf] at hq
  cases hlead : root.isRooted with
  | true =>
    rw [hlead, if_pos rfl, List.append_assoc, List.singleton_append] at hq
    simp only [hq, hpieces, hrest, ofNames]
  | false =>
    rw [hlead, if_neg Bool.false_ne_true] at hq
    obtain ⟨first, others, hstem⟩ := List.exists_cons_of_ne_nil
      ((isRooted_or_stem_ne_nil root).resolve_left (by rw [hlead]; exact Bool.false_ne_true))
    rw [hstem] at hq hpieces
    by_cases hcurrent : first = ['.']
    · rw [hcurrent] at hq hpieces
      rw [List.head?_cons, if_pos rfl, List.filterMap_cons_none rfl, List.append_assoc, List.singleton_append] at hq
      simp only [hq, hpieces, List.cons_append, List.tail_cons, hrest, ofNames]
    · have hfirst : first ≠ [] := by
        rcases exists_of_not_isRooted hlead with ⟨htext, -⟩ | ⟨piece, pieces, hroot', hpiece⟩
        · exact absurd htext hroot
        · rcases pieces_eq_stem root with h | h <;> rw [hroot', hstem] at h <;>
            exact (List.cons.inj h).1 ▸ hpiece
      have hsome : componentOf? first = some .parent ∨ ∃ name, componentOf? first = some (.name name) := by
        rw [componentOf?, if_neg (not_or.mpr ⟨hfirst, hcurrent⟩)]
        split
        · exact .inl rfl
        · exact .inr ⟨_, rfl⟩
      have hhead : (first :: others).head? ≠ some ['.'] := fun h => hcurrent (Option.some.inj h)
      have hdrop := hrest (first :: others)
      rw [if_neg hhead, List.nil_append] at hq
      rcases hsome with hsome | ⟨name, hsome⟩ <;>
        rw [List.filterMap_cons_some hsome, List.cons_append] at hq hdrop <;>
        simp only [hq, hpieces, hdrop, ofNames]

end PathFilter

end CSharpStyle
