import Mathlib.Data.List.Permutation
import CSharpStyle.Proofs.CoreGrammar.Words

/-!
# The order of modifiers

What the modifiers in front of a declaration say depends on the order of the access keywords only, and these may stand
in either order in the two pairs that are levels of their own. A header reads all modifiers, unless the last one is
`new` and a bracket is behind it: that word is left.

* `Modifiers.addAll_eq_of_perm`: the order of modifiers does not matter.
* `Header.readOn_modifiers` and `Header.readOn_leavesNew`: a header over modifiers.
-/

namespace CSharpStyle

open Token

/-! ### What modifiers say -/

namespace Modifiers

/-- The modifiers with the words added one after the other. -/
def addAll (m : Modifiers) (words : List String) : Modifiers := words.foldl (fun m word => (m.add? word).getD m) m

/-- The access keywords among the words. -/
def accessWords (words : List String) : List String :=
  words.filter fun word => (Accessibility.unspecified.combine? word).isSome

/-- There is at most one access keyword, or a pair that is a level of its own. -/
def IsUnordered (words : List String) : Prop :=
  (accessWords words).length ≤ 1 ∨ (accessWords words).Perm ["protected", "internal"] ∨
    (accessWords words).Perm ["private", "protected"]

instance (words : List String) : Decidable (IsUnordered words) := inferInstanceAs (Decidable (_ ∨ _))

/-- The level that the access keywords lead to. -/
def levelBehind (level : Accessibility) (words : List String) : Accessibility :=
  words.foldl (fun level word => (level.combine? word).getD level) level

/-- A word leaves its own mark, and no word takes one back. -/
theorem getD_add? (m : Modifiers) (word : String) :
    (m.add? word).getD m =
      { accessibility := (m.accessibility.combine? word).getD m.accessibility
        isStatic := m.isStatic || "static" == word
        isConst := m.isConst || "const" == word
        isReadonly := m.isReadonly || "readonly" == word
        threadStatic := m.threadStatic } := by
  cases hlevel : m.accessibility.combine? word with
  | some level =>
    have hnot (other : String) (h : m.accessibility.combine? other = none) : (other == word) = false :=
      beq_eq_false_iff_ne.mpr (by rintro rfl; rw [h] at hlevel; cases hlevel)
    rw [add?, hlevel, hnot "static" rfl, hnot "const" rfl, hnot "readonly" rfl]
    simp
  | none =>
    rw [add?, hlevel]
    by_cases hstatic : word = "static"
    · subst hstatic; simp
    by_cases hconst : word = "const"
    · subst hconst; simp
    by_cases hreadonly : word = "readonly"
    · subst hreadonly; simp
    have hnot {other : String} (h : ¬word = other) : (other == word) = false :=
      beq_eq_false_iff_ne.mpr (Ne.symm h)
    simp only [hstatic, hconst, hreadonly, ↓reduceIte, hnot hstatic, hnot hconst, hnot hreadonly, Bool.or_false,
      Option.getD_none]
    split <;> rfl

/-- The marks that are left are those of the words, in whatever order they stand. -/
theorem addAll_eq (m : Modifiers) (words : List String) :
    m.addAll words =
      { accessibility := levelBehind m.accessibility (accessWords words)
        isStatic := m.isStatic || words.contains "static"
        isConst := m.isConst || words.contains "const"
        isReadonly := m.isReadonly || words.contains "readonly"
        threadStatic := m.threadStatic } := by
  induction words generalizing m with
  | nil => simp [addAll, accessWords, levelBehind]
  | cons word words ih =>
    have hlevel : levelBehind ((m.accessibility.combine? word).getD m.accessibility) (accessWords words) =
        levelBehind m.accessibility (accessWords (word :: words)) := by
      rw [accessWords, accessWords, List.filter_cons]
      split
      · rfl
      · rename_i hword
        rw [← Accessibility.isSome_combine? m.accessibility, Option.not_isSome_iff_eq_none] at hword
        rw [hword]
        rfl
    rw [show m.addAll (word :: words) = ((m.add? word).getD m).addAll words from rfl, ih, getD_add?, ← hlevel]
    simp only [List.contains_cons, Bool.or_assoc]

theorem levelBehind_eq_of_perm {words words' : List String} (h : words.Perm words')
    (hwords : words.length ≤ 1 ∨ words.Perm ["protected", "internal"] ∨ words.Perm ["private", "protected"]) :
    levelBehind .unspecified words = levelBehind .unspecified words' := by
  have hpair (a b : String) (hlevel : levelBehind .unspecified [a, b] = levelBehind .unspecified [b, a])
      (hwords : words.Perm [a, b]) : levelBehind .unspecified words = levelBehind .unspecified words' := by
    rcases List.perm_pair.mp hwords with rfl | rfl <;> rcases List.pair_perm.mp h with rfl | rfl
    · rfl
    · exact hlevel
    · rfl
    · exact hlevel.symm
  rcases hwords with hlength | hwords | hwords
  · match words, hlength with
    | [], _ => rw [h.nil_eq]
    | [word], _ => rw [List.singleton_perm.mp h]
  · exact hpair "protected" "internal" rfl hwords
  · exact hpair "private" "protected" rfl hwords

/-- The order of modifiers does not matter. -/
theorem addAll_eq_of_perm {words words' : List String} (h : words.Perm words') (hwords : IsUnordered words) :
    ({} : Modifiers).addAll words = ({} : Modifiers).addAll words' := by
  have hcontains (word : String) : words.contains word = words'.contains word :=
    Bool.eq_iff_iff.mpr (by simpa using h.mem_iff)
  have hlevel : levelBehind .unspecified (accessWords words) = levelBehind .unspecified (accessWords words') :=
    levelBehind_eq_of_perm (h.filter _) hwords
  rw [addAll_eq, addAll_eq, hcontains, hcontains, hcontains,
    show ({} : Modifiers).accessibility = .unspecified from rfl, hlevel]

/-- The word `new` leaves no mark. -/
theorem addAll_new (m : Modifiers) (words : List String) : m.addAll (words ++ ["new"]) = m.addAll words := by
  rw [addAll, List.foldl_append]
  show ((addAll m words).add? "new").getD (addAll m words) = addAll m words
  rw [add?_unmarked _ (by decide), Option.getD_some]

end Modifiers

/-! ### Headers -/

/-- The token is a keyword that is a modifier. -/
def Token.isModifierKeyword (t : Token) : Bool := t.kind == .keyword && (({} : Modifiers).add? t.text).isSome

theorem Token.kind_of_isModifierKeyword {t : Token} (h : t.isModifierKeyword) : t.kind = .keyword :=
  eq_of_beq (Bool.and_eq_true_iff.mp h).1

theorem Token.eq_of_isKeyword {t : Token} {word : String} (h : t.isKeyword word) : t.kind = .keyword ∧ t.text = word :=
  ⟨eq_of_beq (Bool.and_eq_true_iff.mp h).1, eq_of_beq (Bool.and_eq_true_iff.mp h).2⟩

/-- The token opens a tuple type or an attribute. -/
def Token.opensTupleOrAttribute (t : Token) : Bool := t.isPunctuation "(" || t.isPunctuation "["

/-- The last modifier is `new`, which is no modifier in front of the bracket behind it. -/
def leavesNew (modifiers rest : List Token) : Bool :=
  modifiers.getLast?.any (·.isKeyword "new") && rest.head?.any (·.opensTupleOrAttribute)

theorem exists_of_leavesNew {modifiers rest : List Token} (h : leavesNew modifiers rest = true) :
    ∃ lead word, modifiers = lead ++ [word] ∧ word.isKeyword "new" ∧ rest.head?.any (·.opensTupleOrAttribute) := by
  obtain ⟨hlast, hbracket⟩ := Bool.and_eq_true_iff.mp h
  obtain ⟨word, hword, hnew⟩ := (Option.any_eq_true _ _).mp hlast
  obtain ⟨lead, hlead⟩ := List.getLast?_eq_some_iff.mp hword
  exact ⟨lead, word, hlead, hnew, hbracket⟩

/-- No bracket is behind the modifiers in front of a keyword. -/
theorem leavesNew_keyword {t : Token} (ht : t.kind = .keyword) (modifiers rest : List Token) :
    leavesNew modifiers (t :: rest) = false := by
  have hmark := not_isPunctuation_of_kind (t := t) (by rw [ht]; decide)
  simp [leavesNew, opensTupleOrAttribute, hmark]

namespace Header

variable {modifiers rest : List Token} {t : Token}

/-- A modifier is read unless it is `new` in front of a bracket. -/
theorem step?_modifier (header : Header) (ht : t.isModifierKeyword) (hend : leavesNew [t] rest = false)
    (before : List Token) :
    step? header ⟨before, t :: rest⟩ =
      some ({ header with modifiers := (header.modifiers.add? t.text).getD header.modifiers },
        ⟨t :: before, rest⟩) := by
  have hkind := kind_of_isModifierKeyword ht
  have hmark : t.isPunctuation "[" = false := not_isPunctuation_of_kind (by rw [hkind]; decide) "["
  rw [step?, show (Cursor.mk before (t :: rest)).peek? = some t from rfl]
  simp only [hmark, Bool.false_eq_true, ↓reduceIte]
  split
  · rename_i hnew
    have hbracket : rest.head?.any (·.opensTupleOrAttribute) = false := by simpa [leavesNew, hnew] using hend
    have hsecond : ((Cursor.mk before (t :: rest)).seesSecond "(" || (Cursor.mk before (t :: rest)).seesSecond "[") =
        false := by
      rw [← hbracket]
      cases rest <;> rfl
    rw [if_neg (by rw [hsecond]; exact Bool.false_ne_true), (eq_of_isKeyword hnew).2,
      header.modifiers.add?_unmarked (show "new" ∈ Modifiers.unmarked by decide)]
    rfl
  · have hmodifier := (Bool.and_eq_true_iff.mp ht).2
    rw [← header.modifiers.isSome_add?] at hmodifier
    obtain ⟨after, hafter⟩ := Option.isSome_iff_exists.mp hmodifier
    simp only [hafter, Option.getD_some]
    rfl

/-- A header reads all modifiers. -/
theorem readOn_modifiers (header : Header) (hmodifiers : ∀ t ∈ modifiers, t.isModifierKeyword)
    (hend : leavesNew modifiers rest = false) (before : List Token) :
    readOn header ⟨before, modifiers ++ rest⟩ =
      readOn { header with modifiers := header.modifiers.addAll (modifiers.map (·.text)) }
        ⟨modifiers.reverse ++ before, rest⟩ := by
  induction modifiers generalizing header before with
  | nil => rfl
  | cons t modifiers ih =>
    obtain ⟨ht, hmodifiers⟩ := List.forall_mem_cons.mp hmodifiers
    have hstep : leavesNew [t] (modifiers ++ rest) = false ∧ leavesNew modifiers rest = false := by
      cases modifiers with
      | nil => exact ⟨hend, rfl⟩
      | cons u modifiers =>
        exact ⟨leavesNew_keyword (kind_of_isModifierKeyword (hmodifiers u List.mem_cons_self)) .., hend⟩
    rw [readOn_eq, List.cons_append, step?_modifier header ht hstep.1]
    simp only
    rw [ih _ hmodifiers hstep.2]
    simp [Modifiers.addAll]

/-- A header ends in front of the word `new` that is left. -/
theorem readOn_leavesNew (header : Header) (ht : t.isKeyword "new") (hrest : rest.head?.any (·.opensTupleOrAttribute))
    (before : List Token) : readOn header ⟨before, t :: rest⟩ = (header, ⟨before, t :: rest⟩) := by
  have hmark : t.isPunctuation "[" = false := not_isPunctuation_of_isKeyword ht "["
  have hsecond : ((Cursor.mk before (t :: rest)).seesSecond "(" || (Cursor.mk before (t :: rest)).seesSecond "[") =
      true := by
    rw [← hrest]
    cases rest <;> rfl
  have hstep : step? header ⟨before, t :: rest⟩ = none := by
    rw [step?, show (Cursor.mk before (t :: rest)).peek? = some t from rfl]
    simp only [hmark, ht, hsecond, Bool.false_eq_true, ↓reduceIte]
  rw [readOn_eq, hstep]

end Header

end CSharpStyle
