import CSharpStyle.Proofs.Naming.Suggestion

/-!
# Words of a name

Splitting a name into words keeps all of its characters but the underscores, in lowercase, and adds nothing: no case
mapping makes a character vanish, and none makes an underscore. The words can also be found by positions, with a look at
the character in front of the current one. At the beginning of a name there is none, but a word can end only where one
has begun.

* `Casing.wordsByPosition?_eq`: no position asks for the character in front of the name.
* `Casing.words_keep_characters`: what the words of a name are, and when a name has none.
-/

namespace CSharpStyle

namespace Unicode

/-! ### Case mappings -/

theorem ofNat_eq_underscore {n : Nat} (h : Char.ofNat n = '_') : n = 0x5F := by
  by_cases hvalid : n.isValidChar
  · rw [Char.ofNat, dif_pos hvalid] at h
    exact congrArg Char.toNat h
  · rw [Char.ofNat, dif_neg hvalid] at h
    exact absurd h (by decide)

theorem exists_of_lookup {sequences : List (Nat × List Nat)} {n : Nat} {images : List Nat}
    (h : sequences.lookup n = some images) : ∃ entry ∈ sequences, entry.2 = images := by
  obtain ⟨before, rest, rfl, -⟩ := List.lookup_eq_some_iff.mp h
  exact ⟨(n, images), by simp, rfl⟩

theorem mapCodePoint_ne_nil {sequences : List (Nat × List Nat)} (hsequences : ∀ entry ∈ sequences, entry.2 ≠ [])
    (shifts : Shifts) (n : Nat) : mapCodePoint sequences shifts n ≠ [] := by
  unfold mapCodePoint
  split
  · rename_i images hlookup
    obtain ⟨entry, hentry, rfl⟩ := exists_of_lookup hlookup
    simpa using hsequences entry hentry
  · exact List.cons_ne_nil _ _

/-- A code point whose images are all others than the underscore is not mapped to it. -/
theorem underscore_notMem_mapCodePoint {sequences : List (Nat × List Nat)} {shifts : Shifts} {n : Nat}
    (hsequences : ∀ entry ∈ sequences, 0x5F ∉ entry.2) (hshifts : ∀ entry ∈ shifts, 0x5F < entry.2.2.2)
    (hn : n ≠ 0x5F) : '_' ∉ mapCodePoint sequences shifts n := by
  unfold mapCodePoint
  split
  · rename_i images hlookup
    obtain ⟨entry, hentry, rfl⟩ := exists_of_lookup hlookup
    intro hmem
    obtain ⟨image, himage, heq⟩ := List.mem_map.mp hmem
    exact hsequences entry hentry (ofNat_eq_underscore heq ▸ himage)
  · intro hmem
    have himage := ofNat_eq_underscore (List.mem_singleton.mp hmem).symm
    cases hshift : shifts.image? n with
    | none =>
      rw [hshift] at himage
      exact hn himage
    | some image =>
      rw [hshift, Option.getD_some] at himage
      obtain ⟨⟨first, last, step, target⟩, hentry, heq⟩ := List.exists_of_findSome?_eq_some hshift
      have htarget := hshifts _ hentry
      simp only [Option.ite_none_right_eq_some, Option.some.injEq] at heq htarget
      omega

theorem toLowercase_ne_nil (c : Char) : toLowercase c ≠ [] := by
  unfold toLowercase
  split
  · exact List.cons_ne_nil _ _
  · exact mapCodePoint_ne_nil (by decide) _ _

theorem toUppercase_ne_nil (c : Char) : toUppercase c ≠ [] := by
  unfold toUppercase
  split
  · exact List.cons_ne_nil _ _
  · exact mapCodePoint_ne_nil (by decide) _ _

/-- Only an underscore has an underscore in its lowercase form. -/
theorem underscore_notMem_toLowercase {c : Char} (h : c ≠ '_') : '_' ∉ toLowercase c := by
  unfold toLowercase
  split
  · rename_i hascii
    have hlower : c ≠ '_' → c.toLower ≠ '_' :=
      Casing.forall_ascii (p := fun c => c ≠ '_' → c.toLower ≠ '_') (by decide +kernel) (of_decide_eq_true hascii)
    simpa using (hlower h).symm
  · refine underscore_notMem_mapCodePoint (by decide) (by decide +kernel) fun hvalue => h ?_
    rw [← Char.ofNat_toNat c, hvalue]

end Unicode

namespace Casing

/-! ### Looking at the character in front -/

/-- The character in front of position `i`. There is none in front of a name. -/
def inFront? (name : List Char) : Nat → Option Char
  | 0 => none
  | i + 1 => name[i]?

/-- Whether a word ends in front of the character `c` at position `i`, behind the beginning `word` of a word. The
character in front of an uppercase letter is asked for when a word has begun, and there is no answer without it. -/
def startsWordAt? (name : List Char) (i : Nat) (word : List Char) (c : Char) : Option Bool :=
  if Unicode.isUppercase c && !word.isEmpty then
    (inFront? name i).map fun p => Unicode.isLowercase p || p.isDigit || name[i + 1]?.any Unicode.isLowercase
  else some false

/-- The words of a name from position `i` on, where `rest` stands. -/
def wordsAt? (name : List Char) : Nat → List Char → List Char → Option (List (List Char))
  | _, word, [] => some (finished word)
  | i, word, c :: rest =>
    if c = '_' then (wordsAt? name (i + 1) [] rest).map (finished word ++ ·)
    else
      match startsWordAt? name i word c with
      | none => none
      | some true => (wordsAt? name (i + 1) (Unicode.toLowercase c) rest).map (word :: ·)
      | some false => wordsAt? name (i + 1) (word ++ Unicode.toLowercase c) rest

/-- The words of a name, found by positions. There are none at all if some position has to look in front of the
name. -/
def wordsByPosition? (name : List Char) : Option (List (List Char)) := wordsAt? name 0 [] name

theorem inFront?_length (before rest : List Char) : inFront? (before ++ rest) before.length = before.getLast? := by
  obtain rfl | ⟨before, p, rfl⟩ := List.eq_nil_or_concat before
  · rfl
  · simp [inFront?]

/-- Where a word has begun there is a character in front. -/
theorem startsWordAt?_eq {before word : List Char} (hword : word ≠ [] → before ≠ []) (c : Char) (rest : List Char) :
    startsWordAt? (before ++ c :: rest) before.length word c =
      some (!word.isEmpty && startsWord before.getLast? c rest) := by
  have hbehind : (before ++ c :: rest)[before.length + 1]? = rest.head? := by
    rw [List.getElem?_append_right (Nat.le_add_right _ _), Nat.add_sub_cancel_left, List.getElem?_cons_succ,
      List.head?_eq_getElem?]
  rw [startsWordAt?, inFront?_length, hbehind, startsWord]
  by_cases hnil : word = []
  · simp [hnil]
  · obtain ⟨p, hp⟩ := Option.ne_none_iff_exists'.mp (mt List.getLast?_eq_none_iff.mp (hword hnil))
    rw [hp]
    cases Unicode.isUppercase c <;> simp [hnil]

/-- Behind `before` the positions give the words that the characters in front of them give. -/
theorem wordsAt?_eq {before word : List Char} (rest : List Char) (hword : word ≠ [] → before ≠ []) :
    wordsAt? (before ++ rest) before.length word rest = some (wordsFrom before.getLast? word rest) := by
  induction rest generalizing before word with
  | nil => rfl
  | cons c rest ih =>
    -- Behind `c` there is a character in front, whatever word has begun.
    have hnext (word : List Char) :
        wordsAt? (before ++ c :: rest) (before.length + 1) word rest = some (wordsFrom (some c) word rest) := by
      have hrest := @ih (before ++ [c]) word fun _ => by simp
      rwa [List.append_assoc, List.singleton_append, List.length_append, List.length_singleton,
        List.getLast?_concat] at hrest
    by_cases hc : c = '_'
    · rw [wordsAt?, if_pos hc, hnext, wordsFrom, if_pos hc, Option.map_some]
    · rw [wordsAt?, if_neg hc, startsWordAt?_eq hword, wordsFrom, if_neg hc]
      cases !word.isEmpty && startsWord before.getLast? c rest with
      | true => simp [hnext]
      | false => simp [hnext]

theorem wordsByPosition?_eq (name : List Char) : wordsByPosition? name = some (words name) :=
  @wordsAt?_eq [] [] name fun h => absurd rfl h

/-! ### What words are made of -/

theorem underscore_notMem_words {name word : List Char} (h : word ∈ words name) : '_' ∉ word := by
  intro hmem
  have hall : '_' ∈ (words name).flatten := List.mem_flatten.mpr ⟨word, h, hmem⟩
  rw [flatten_words] at hall
  obtain ⟨c, hc, hlower⟩ := List.mem_flatMap.mp hall
  have hne : c ≠ '_' := by simpa using (List.mem_filter.mp hc).2
  exact Unicode.underscore_notMem_toLowercase hne hlower

/-- It makes no difference whether the underscores are taken away before or after the case is changed. -/
theorem flatMap_toLowercase_filter (name : List Char) :
    (name.filter (· != '_')).flatMap Unicode.toLowercase = (name.flatMap Unicode.toLowercase).filter (· != '_') := by
  induction name with
  | nil => rfl
  | cons c name ih =>
    rw [List.flatMap_cons, List.filter_append, ← ih]
    by_cases hc : c = '_'
    · subst hc
      rfl
    · have hkept : (Unicode.toLowercase c).filter (· != '_') = Unicode.toLowercase c := by
        rw [List.filter_eq_self]
        intro d hd
        simp only [bne_iff_ne]
        rintro rfl
        exact Unicode.underscore_notMem_toLowercase hc hd
      rw [hkept, List.filter_cons_of_pos (by simpa using hc), List.flatMap_cons]

/-- Only names of underscores have no words. -/
theorem words_eq_nil_iff {name : List Char} : words name = [] ↔ ∀ c ∈ name, c = '_' := by
  have hnonempty : ∀ word ∈ words name, word ≠ [] := ne_nil_of_mem_wordsFrom none [] name
  have hflatten : words name = [] ↔ (words name).flatten = [] := by
    constructor
    · intro h
      rw [h, List.flatten_nil]
    · intro h
      refine List.eq_nil_iff_forall_not_mem.mpr fun word hword => hnonempty word hword ?_
      exact List.flatten_eq_nil_iff.mp h word hword
  rw [hflatten, flatten_words, List.flatMap_eq_nil_iff]
  simp [Unicode.toLowercase_ne_nil]

theorem capitalize_ne_nil {word : List Char} (h : word ≠ []) : capitalize word ≠ [] := by
  cases word with
  | nil => exact absurd rfl h
  | cons c word => exact List.append_ne_nil_of_left_ne_nil (Unicode.toUppercase_ne_nil c) _

theorem pascalCase_eq_nil_iff {name : List Char} : pascalCase name = [] ↔ words name = [] := by
  have hnonempty : ∀ word ∈ words name, word ≠ [] := ne_nil_of_mem_wordsFrom none [] name
  rw [pascalCase]
  cases hwords : words name with
  | nil => simp
  | cons first others =>
    rw [hwords] at hnonempty
    simp [capitalize_ne_nil (hnonempty first (List.mem_cons_self ..))]

theorem camelCase_eq_nil_iff {name : List Char} : camelCase name = [] ↔ words name = [] := by
  have hnonempty : ∀ word ∈ words name, word ≠ [] := ne_nil_of_mem_wordsFrom none [] name
  rw [camelCase]
  cases hwords : words name with
  | nil => simp
  | cons first others =>
    rw [hwords] at hnonempty
    simp [hnonempty first (List.mem_cons_self ..)]

/-- The words of a name together are its characters in lowercase without the underscores. None of them is empty or has
an underscore, and no position has to look in front of the name. Only names of underscores have no words, and so no
spelling in PascalCase or camelCase. -/
theorem words_keep_characters (name : List Char) :
    (words name).flatten = (name.filter (· != '_')).flatMap Unicode.toLowercase ∧
      (words name).flatten = (name.flatMap Unicode.toLowercase).filter (· != '_') ∧
      (∀ word ∈ words name, word ≠ [] ∧ '_' ∉ word) ∧
      wordsByPosition? name = some (words name) ∧
      (pascalCase name = [] ↔ ∀ c ∈ name, c = '_') ∧
      (camelCase name = [] ↔ ∀ c ∈ name, c = '_') := by
  refine ⟨flatten_words name, ?_, fun word hword => ⟨?_, underscore_notMem_words hword⟩, wordsByPosition?_eq name,
    ?_, ?_⟩
  · rw [flatten_words, flatMap_toLowercase_filter]
  · exact ne_nil_of_mem_wordsFrom none [] name word hword
  · exact pascalCase_eq_nil_iff.trans words_eq_nil_iff
  · exact camelCase_eq_nil_iff.trans words_eq_nil_iff

example : words "_İd2XMLFile_".toList = ["i̇d2".toList, "xml".toList, "file".toList] := by decide

end Casing

end CSharpStyle
