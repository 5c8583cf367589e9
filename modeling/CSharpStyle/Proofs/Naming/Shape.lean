import CSharpStyle.Convention.Naming
import CSharpStyle.Proofs.Pattern.Matching

/-!
# The shapes of names

What the built-in patterns of naming rules say of a name, without regular expressions: a fixed mark, one letter
of the required case, and letters and digits.

* `Casing.HasShape`: the names that a naming rule asks for.
* `Casing.search_builtIn_iff`: the built-in pattern of a rule matches exactly the names of its shape.
-/

namespace CSharpStyle

namespace CharSet

/-! ### The classes of the built-in patterns -/

def upper : CharSet := none.union (range 'A' 'Z')

def lower : CharSet := none.union (range 'a' 'z')

def alphanumeric : CharSet := (upper.union (range 'a' 'z')).union (range '0' '9')

theorem contains_upper (c : Char) : upper.contains c = c.isUpper := (Bool.decide_and _ _).symm

theorem contains_lower (c : Char) : lower.contains c = c.isLower := rfl

theorem contains_alphanumeric (c : Char) : alphanumeric.contains c = c.isAlphanum := by
  have hclasses : c.isAlphanum = (c.isUpper || c.isLower || c.isDigit) := rfl
  rw [hclasses, ← contains_upper]
  rfl

theorem contains_singleton_iff {c d : Char} : (singleton c).contains d ↔ d = c := by
  simp only [singleton, contains, Bool.and_eq_true, decide_eq_true_eq]
  exact ⟨fun h => Char.le_antisymm h.2 h.1, fun h => h ▸ ⟨Char.le_refl _, Char.le_refl _⟩⟩

end CharSet

namespace Regex

variable {text : List Char} {i j k : Nat}

/-! ### Occurrences as parts of a list -/

theorem spans_set_iff {s : CharSet} :
    (set s).Spans text.toArray i j ↔ j = i + 1 ∧ ∃ c, s.contains c ∧ text.drop i = c :: text.drop j := by
  refine and_congr_right fun hj => exists_congr fun c => and_comm.trans (and_congr_right fun _ => ?_)
  subst hj
  rw [List.getElem?_toArray, Option.mem_def, ← List.head?_drop, ← List.tail_drop]
  exact ⟨List.eq_cons_of_mem_head?, fun h => by rw [h, List.head?_cons]⟩

theorem spans_textStart_iff : (anchor .textStart).Spans text.toArray i j ↔ i = 0 ∧ j = 0 := by
  simp only [Spans, Anchor.holds, beq_iff_eq]
  omega

theorem spans_textEnd_iff : (anchor .textEnd).Spans text.toArray i j ↔ i = text.length ∧ j = text.length := by
  simp only [Spans, Anchor.holds, beq_iff_eq, List.size_toArray]
  omega

/-- Any number of characters of a set. -/
theorem spans_star_iff {s : CharSet} :
    (repeated (set s) 0 none).Spans text.toArray i j ↔
      ∃ run, (∀ c ∈ run, s.contains c) ∧ j = i + run.length ∧ text.drop i = run ++ text.drop j := by
  constructor
  · rintro ⟨n, -, -, hsteps⟩
    induction n generalizing i with
    | zero => exact ⟨[], List.forall_mem_nil _, hsteps.symm, by rw [hsteps]; rfl⟩
    | succ n ih =>
      obtain ⟨k, hstep, hrest⟩ := hsteps
      obtain ⟨rfl, c, hc, hdrop⟩ := spans_set_iff.mp hstep
      obtain ⟨run, hrun, hj, hbehind⟩ := ih hrest
      refine ⟨c :: run, List.forall_mem_cons.mpr ⟨hc, hrun⟩, ?_, by rw [hdrop, hbehind]; rfl⟩
      rw [hj, List.length_cons, Nat.add_assoc, Nat.add_comm 1]
  · rintro ⟨run, hrun, hj, hdrop⟩
    refine ⟨run.length, Nat.zero_le _, by simp, ?_⟩
    induction run generalizing i with
    | nil => exact hj.symm
    | cons c run ih =>
      obtain ⟨hc, hrun⟩ := List.forall_mem_cons.mp hrun
      have hbehind : text.drop (i + 1) = run ++ text.drop j := by rw [← List.tail_drop, hdrop]; rfl
      refine ⟨i + 1, spans_set_iff.mpr ⟨rfl, c, hc, by rw [hbehind]; exact hdrop⟩, ih hrun ?_ hbehind⟩
      rw [hj, List.length_cons, Nat.add_assoc, Nat.add_comm 1]

/-- An expression with literal characters behind it. -/
def followedBy (r : Regex) (literals : List Char) : Regex :=
  literals.foldl (fun r c => r.seq (set (.singleton c))) r

theorem spans_followedBy_iff {r : Regex} {literals : List Char} :
    (r.followedBy literals).Spans text.toArray i k ↔
      ∃ j, r.Spans text.toArray i j ∧ k = j + literals.length ∧ text.drop j = literals ++ text.drop k := by
  induction literals generalizing r with
  | nil => exact ⟨fun h => ⟨k, h, rfl, rfl⟩, fun ⟨j, h, hk, _⟩ => hk ▸ h⟩
  | cons c literals ih =>
    refine ih.trans ⟨?_, ?_⟩
    · rintro ⟨_, ⟨j, hr, hc⟩, hk, hrest⟩
      obtain ⟨rfl, d, hd, hdrop⟩ := spans_set_iff.mp hc
      obtain rfl := CharSet.contains_singleton_iff.mp hd
      refine ⟨j, hr, ?_, by rw [hdrop, hrest]; rfl⟩
      rw [hk, List.length_cons, Nat.add_assoc, Nat.add_comm 1]
    · rintro ⟨j, hr, hk, hdrop⟩
      have hrest : text.drop (j + 1) = literals ++ text.drop k := by rw [← List.tail_drop, hdrop]; rfl
      refine ⟨j + 1, ⟨j, hr, ?_⟩, ?_, hrest⟩
      · exact spans_set_iff.mpr ⟨rfl, c, CharSet.contains_singleton_iff.mpr rfl, by rw [hrest]; exact hdrop⟩
      · rw [hk, List.length_cons, Nat.add_assoc, Nat.add_comm 1]

/-! ### The expressions that the built-in patterns denote -/

/-- A text from its beginning on. -/
def beginning (mark : List Char) : Regex := (seq empty (anchor .textStart)).followedBy mark

/-- The whole text is a mark, one character of a set, and letters and digits. -/
def marked (mark : List Char) (first : CharSet) : Regex :=
  (((beginning mark).seq (set first)).seq (repeated (set .alphanumeric) 0 none)).seq (anchor .textEnd)

/-- What follows the mark may also be missing. -/
def optionallyMarked (mark : List Char) (first : CharSet) : Regex :=
  ((beginning mark).seq
    (repeated ((empty.seq (set first)).seq (repeated (set .alphanumeric) 0 none)) 0 (some 1))).seq (anchor .textEnd)

theorem spans_beginning_iff {mark : List Char} :
    (beginning mark).Spans text.toArray i j ↔ i = 0 ∧ j = mark.length ∧ text = mark ++ text.drop j := by
  refine spans_followedBy_iff.trans ⟨?_, ?_⟩
  · rintro ⟨_, ⟨_, rfl, hstart⟩, hj, hdrop⟩
    obtain ⟨rfl, rfl⟩ := spans_textStart_iff.mp hstart
    exact ⟨rfl, hj.trans (Nat.zero_add _), hdrop⟩
  · rintro ⟨rfl, hj, htext⟩
    exact ⟨0, ⟨0, rfl, spans_textStart_iff.mpr ⟨rfl, rfl⟩⟩, hj.trans (Nat.zero_add _).symm, htext⟩

/-- The characters from a position to the end of the text are one of a set and then letters and digits. -/
theorem spans_word_iff {first : CharSet} :
    (∃ j k, (set first).Spans text.toArray i j ∧ (repeated (set .alphanumeric) 0 none).Spans text.toArray j k ∧
        k = text.length) ↔
      ∃ c rest, first.contains c ∧ (∀ d ∈ rest, CharSet.alphanumeric.contains d) ∧ text.drop i = c :: rest := by
  constructor
  · rintro ⟨j, k, hfirst, hrun, rfl⟩
    obtain ⟨rfl, c, hc, hdrop⟩ := spans_set_iff.mp hfirst
    obtain ⟨run, hrun, -, hbehind⟩ := spans_star_iff.mp hrun
    rw [List.drop_length, List.append_nil] at hbehind
    exact ⟨c, run, hc, hrun, hbehind ▸ hdrop⟩
  · rintro ⟨c, rest, hc, hrest, hdrop⟩
    have hbehind : text.drop (i + 1) = rest := by rw [← List.tail_drop, hdrop]; rfl
    have hlength : text.length = i + 1 + rest.length := by
      have := congrArg List.length hdrop
      rw [List.length_drop, List.length_cons] at this
      omega
    refine ⟨i + 1, text.length, spans_set_iff.mpr ⟨rfl, c, hc, by rw [hbehind, hdrop]⟩, ?_, rfl⟩
    exact spans_star_iff.mpr ⟨rest, hrest, hlength, by rw [hbehind, List.drop_length, List.append_nil]⟩

theorem search_marked_iff {mark : List Char} {first : CharSet} {name : String} :
    (marked mark first).search name ↔
      ∃ c rest, first.contains c ∧ (∀ d ∈ rest, CharSet.alphanumeric.contains d) ∧ name.toList = mark ++ c :: rest := by
  rw [search_iff]
  constructor
  · rintro ⟨i, _, -, k, ⟨j, ⟨m, hmark, hfirst⟩, hrun⟩, hend⟩
    obtain ⟨rfl, rfl, hname⟩ := spans_beginning_iff.mp hmark
    obtain ⟨c, rest, hc, hrest, hdrop⟩ := spans_word_iff.mp ⟨j, k, hfirst, hrun, (spans_textEnd_iff.mp hend).1⟩
    exact ⟨c, rest, hc, hrest, hdrop ▸ hname⟩
  · rintro ⟨c, rest, hc, hrest, hname⟩
    have hdrop : name.toList.drop mark.length = c :: rest := by rw [hname, List.drop_left]
    obtain ⟨j, k, hfirst, hrun, hk⟩ := spans_word_iff.mpr ⟨c, rest, hc, hrest, hdrop⟩
    have hmark := spans_beginning_iff.mpr ⟨rfl, rfl, hname.trans (by rw [hdrop])⟩
    exact ⟨0, _, Nat.zero_le _, k, ⟨j, ⟨_, hmark, hfirst⟩, hrun⟩, spans_textEnd_iff.mpr ⟨hk, rfl⟩⟩

theorem search_optionallyMarked_iff {mark : List Char} {first : CharSet} {name : String} :
    (optionallyMarked mark first).search name ↔
      name.toList = mark ∨ ∃ c rest,
        first.contains c ∧ (∀ d ∈ rest, CharSet.alphanumeric.contains d) ∧ name.toList = mark ++ c :: rest := by
  rw [search_iff]
  constructor
  · rintro ⟨i, _, -, k, ⟨m, hmark, n, -, hbound, hsteps⟩, hend⟩
    obtain ⟨rfl, rfl, hname⟩ := spans_beginning_iff.mp hmark
    obtain ⟨rfl, -⟩ := spans_textEnd_iff.mp hend
    have hn : n ≤ 1 := hbound 1 rfl
    rcases Nat.le_one_iff_eq_zero_or_eq_one.mp hn with rfl | rfl
    · have hlength : mark.length = name.toList.length := hsteps
      rw [hlength, List.drop_length, List.append_nil] at hname
      exact .inl hname
    · obtain ⟨_, ⟨j, ⟨_, rfl, hfirst⟩, hrun⟩, rfl⟩ := hsteps
      obtain ⟨c, rest, hc, hrest, hdrop⟩ := spans_word_iff.mp ⟨j, _, hfirst, hrun, rfl⟩
      exact .inr ⟨c, rest, hc, hrest, hdrop ▸ hname⟩
  · rintro (hname | ⟨c, rest, hc, hrest, hname⟩)
    · have hend : name.toList.drop name.toList.length = [] := List.drop_length
      have hmark := spans_beginning_iff.mpr ⟨rfl, rfl, show name.toList = mark ++ name.toList.drop mark.length by
        rw [← hname, hend, List.append_nil]⟩
      refine ⟨0, mark.length, Nat.zero_le _, mark.length, ⟨_, hmark, 0, Nat.zero_le 0, by simp, rfl⟩, ?_⟩
      exact spans_textEnd_iff.mpr ⟨by rw [hname], by rw [hname]⟩
    · have hdrop : name.toList.drop mark.length = c :: rest := by rw [hname, List.drop_left]
      obtain ⟨j, k, hfirst, hrun, hk⟩ := spans_word_iff.mpr ⟨c, rest, hc, hrest, hdrop⟩
      have hmark := spans_beginning_iff.mpr ⟨rfl, rfl, hname.trans (by rw [hdrop])⟩
      refine ⟨0, _, Nat.zero_le _, k, ⟨_, hmark, 1, Nat.zero_le 1, by simp, k, ?_, rfl⟩,
        spans_textEnd_iff.mpr ⟨hk, rfl⟩⟩
      exact ⟨j, ⟨_, rfl, hfirst⟩, hrun⟩

end Regex

namespace Casing

/-- What the names of a rule begin with. -/
def mark : Rule → List Char
  | .interfacePrefix => ['I']
  | .typeParameterPrefix => ['T']
  | .camelCaseUnderscoreField => ['_']
  | .staticFieldPrefix => ['s', '_']
  | .threadStaticFieldPrefix => ['t', '_']
  | _ => []

/-- The names of a rule are in camelCase behind their mark, and not in PascalCase. -/
def isCamel : Rule → Bool
  | .camelCaseUnderscoreField | .staticFieldPrefix | .threadStaticFieldPrefix | .camelCaseParameter => true
  | _ => false

/-- A letter of the case that a rule asks for behind its mark. -/
def leads (rule : Rule) (c : Char) : Bool := if isCamel rule then c.isLower else c.isUpper

/-- The names that a naming rule asks for. -/
inductive HasShape (rule : Rule) : List Char → Prop
  | word {c : Char} {rest : List Char} (hc : leads rule c) (hrest : ∀ d ∈ rest, d.isAlphanum) :
    HasShape rule (mark rule ++ c :: rest)
  /-- The mark of type parameters can stand alone. -/
  | mark (h : rule = .typeParameterPrefix) : HasShape rule (mark rule)

theorem hasShape_iff {rule : Rule} {name : List Char} :
    HasShape rule name ↔
      (∃ c rest, leads rule c ∧ (∀ d ∈ rest, d.isAlphanum) ∧ name = mark rule ++ c :: rest) ∨
        rule = .typeParameterPrefix ∧ name = mark rule := by
  constructor
  · rintro (⟨hc, hrest⟩ | h)
    · exact .inl ⟨_, _, hc, hrest, rfl⟩
    · exact .inr ⟨h, rfl⟩
  · rintro (⟨c, rest, hc, hrest, rfl⟩ | ⟨h, rfl⟩)
    · exact .word hc hrest
    · exact .mark h

/-- The expression that the built-in pattern of a naming rule denotes. -/
def builtIn : Rule → Regex
  | .typeParameterPrefix => .optionallyMarked ['T'] .upper
  | rule => .marked (mark rule) (if isCamel rule then .lower else .upper)

theorem parse?_defaultPattern_eq (rule : Rule) :
    ∀ pattern ∈ rule.defaultPattern?, Regex.parse? pattern = some (builtIn rule) := by
  cases rule <;> rintro _ ⟨⟩ <;> rfl

/-- The built-in pattern of a rule matches the names of its shape and no others. -/
theorem search_builtIn_iff {rule : Rule} {name : String} :
    (builtIn rule).search name ↔ HasShape rule name.toList := by
  rw [hasShape_iff]
  by_cases hrule : rule = .typeParameterPrefix
  · subst hrule
    rw [builtIn, Regex.search_optionallyMarked_iff, or_comm]
    simp only [CharSet.contains_upper, CharSet.contains_alphanumeric]
    exact or_congr_right (and_iff_right trivial).symm
  · have hbuiltIn : builtIn rule = .marked (mark rule) (if isCamel rule then CharSet.lower else CharSet.upper) := by
      cases rule <;> first | rfl | exact absurd rfl hrule
    have hleads (c : Char) : (if isCamel rule then CharSet.lower else CharSet.upper).contains c = leads rule c := by
      rw [leads]
      split
      · exact CharSet.contains_lower c
      · exact CharSet.contains_upper c
    rw [hbuiltIn, Regex.search_marked_iff, or_iff_left fun h => hrule h.1]
    simp only [hleads, CharSet.contains_alphanumeric]

end Casing

end CSharpStyle
