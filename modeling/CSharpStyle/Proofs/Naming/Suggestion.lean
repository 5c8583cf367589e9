import CSharpStyle.Proofs.Naming.Shape
import CSharpStyle.Proofs.Settings.Usability

/-!
# Suggested names

With its built-in pattern a naming rule accepts exactly the names of its shape. For every other ASCII name the
conventional spelling is one, as long as the part of the name that is spelled anew begins with a letter, and is
suggested. However a name is split into words, the words together are the name without its underscores in lowercase:
behind its mark a conventional spelling is therefore one letter of the required case and then letters and digits.

An identifier is here what is written like one. Whether it is reserved is not asked: the parameter `Class` is to be
renamed to `class`.

* `Casing.flatten_words`: what the words of a name are together.
* `Casing.exists_recased_eq`: the words of an ASCII name in camelCase or PascalCase.
* `Casing.hasShape_conventional`: the conventional spelling has the shape that its rule asks for.
* `NamingRule.builtIn_findings`: what a naming rule reports of a declaration, and what it suggests.
-/

namespace CSharpStyle

namespace Casing

/-! ### Words -/

theorem flatten_finished (word : List Char) : (finished word).flatten = word := by
  cases word <;> simp [finished]

theorem flatten_wordsFrom (previous : Option Char) (word name : List Char) :
    (wordsFrom previous word name).flatten = word ++ (name.filter (· != '_')).flatMap Unicode.toLowercase := by
  fun_induction wordsFrom previous word name with
  | case1 previous word => rw [flatten_finished, List.filter_nil, List.flatMap_nil, List.append_nil]
  | case2 previous word rest ih =>
    rw [List.flatten_append, flatten_finished, ih, List.nil_append]
    rfl
  | case3 previous word c rest hc hboundary ih => simp [hc, ih]
  | case4 previous word c rest hc hboundary ih => simp [hc, ih]

/-- The words of a name are its characters in lowercase, without the underscores. -/
theorem flatten_words (name : List Char) :
    (words name).flatten = (name.filter (· != '_')).flatMap Unicode.toLowercase :=
  flatten_wordsFrom none [] name

theorem ne_nil_of_mem_finished {word w : List Char} (h : w ∈ finished word) : w ≠ [] := by
  cases word with
  | nil => cases h
  | cons c word => exact List.mem_singleton.mp h ▸ List.cons_ne_nil c word

theorem ne_nil_of_mem_wordsFrom (previous : Option Char) (word name : List Char) :
    ∀ w ∈ wordsFrom previous word name, w ≠ [] := by
  fun_induction wordsFrom previous word name with
  | case1 previous word => exact fun w => ne_nil_of_mem_finished
  | case2 previous word rest ih => exact fun w hw => (List.mem_append.mp hw).elim ne_nil_of_mem_finished (ih w)
  | case3 previous word c rest hc hboundary ih =>
    have hword : word ≠ [] := by
      rintro rfl
      cases hboundary
    exact List.forall_mem_cons.mpr ⟨hword, ih⟩
  | case4 previous word c rest hc hboundary ih => exact ih

/-- The first word of a name begins with its first character that is no underscore, in lowercase. -/
theorem exists_words_eq_cons {name : List Char} {c d : Char} (hfirst : name.find? (· != '_') = some c)
    (hlower : Unicode.toLowercase c = [d]) : ∃ word others, words name = (d :: word) :: others := by
  obtain ⟨rest, hrest⟩ : ∃ rest, name.filter (· != '_') = c :: rest := by
    rw [← List.head?_filter] at hfirst
    exact ⟨_, List.eq_cons_of_mem_head? hfirst⟩
  have hflat := flatten_words name
  rw [hrest, List.flatMap_cons, hlower] at hflat
  cases hwords : words name with
  | nil => rw [hwords] at hflat; cases hflat
  | cons w others =>
    cases w with
    | nil =>
      have hmem : [] ∈ words name := hwords ▸ List.mem_cons_self ..
      exact absurd rfl (ne_nil_of_mem_wordsFrom none [] name [] hmem)
    | cons e word =>
      rw [hwords] at hflat
      obtain rfl : e = d := (List.cons.inj hflat).1
      exact ⟨word, others, rfl⟩

/-! ### ASCII characters -/

theorem forall_ascii {p : Char → Prop} (h : ∀ n < 0x80, p (Char.ofNat n)) {c : Char} (hc : c.toNat < 0x80) : p c :=
  Char.ofNat_toNat c ▸ h c.toNat hc

theorem toNat_lt_of_isAlphanum {c : Char} (h : c.isAlphanum) : c.toNat < 0x80 := by
  have hle (last : Char) (hlast : last.toNat < 0x80) (hc : c.val ≤ last.val) : c.toNat < 0x80 :=
    Nat.lt_of_le_of_lt (UInt32.le_iff_toNat_le.mp hc) hlast
  rcases Bool.or_eq_true_iff.mp h with halpha | hdigit
  · rcases Bool.or_eq_true_iff.mp halpha with hupper | hlower
    · exact hle 'Z' (by decide) (of_decide_eq_true hupper).2
    · exact hle 'z' (by decide) (of_decide_eq_true (Bool.and_eq_true_iff.mp hlower).2)
  · exact hle '9' (by decide) (of_decide_eq_true (Bool.and_eq_true_iff.mp hdigit).2)

/-- What words are made of. -/
def isPlain (c : Char) : Bool := c.isLower || c.isDigit

theorem toLowercase_of_isAlphanum {c : Char} (h : c.isAlphanum) :
    Unicode.toLowercase c = [c.toLower] ∧ isPlain c.toLower ∧ (c.isAlpha → c.toLower.isLower) :=
  forall_ascii (p := fun c => c.isAlphanum →
    Unicode.toLowercase c = [c.toLower] ∧ isPlain c.toLower ∧ (c.isAlpha → c.toLower.isLower))
    (by decide +kernel) (toNat_lt_of_isAlphanum h) h

theorem isAlphanum_of_isPlain {c : Char} (h : isPlain c) : c.isAlphanum := by
  rcases Bool.or_eq_true_iff.mp h with hlower | hdigit
  · exact Bool.or_eq_true_iff.mpr (.inl (Bool.or_eq_true_iff.mpr (.inr hlower)))
  · exact Bool.or_eq_true_iff.mpr (.inr hdigit)

theorem toUppercase_of_isPlain {c : Char} (h : isPlain c) :
    Unicode.toUppercase c = [c.toUpper] ∧ c.toUpper.isAlphanum ∧ (c.isLower → c.toUpper.isUpper) :=
  forall_ascii (p := fun c => isPlain c →
    Unicode.toUppercase c = [c.toUpper] ∧ c.toUpper.isAlphanum ∧ (c.isLower → c.toUpper.isUpper))
    (by decide +kernel) (toNat_lt_of_isAlphanum (isAlphanum_of_isPlain h)) h

/-! ### Names put together again -/

/-- What an ASCII identifier is made of. -/
def isNameCharacter (c : Char) : Bool := c.isAlphanum || c == '_'

theorem isPlain_of_mem_words {name : List Char} (hname : ∀ c ∈ name, isNameCharacter c) :
    ∀ w ∈ words name, ∀ c ∈ w, isPlain c := by
  intro w hw c hc
  have hmem : c ∈ (words name).flatten := List.mem_flatten.mpr ⟨w, hw, hc⟩
  rw [flatten_words] at hmem
  obtain ⟨d, hd, hcd⟩ := List.mem_flatMap.mp hmem
  obtain ⟨hd, hunderscore⟩ := List.mem_filter.mp hd
  have halphanum : d.isAlphanum := (Bool.or_eq_true_iff.mp (hname d hd)).resolve_right fun h => by
    rw [eq_of_beq h] at hunderscore
    cases hunderscore
  obtain ⟨hlower, hplain, -⟩ := toLowercase_of_isAlphanum halphanum
  rw [hlower, List.mem_singleton] at hcd
  exact hcd ▸ hplain

theorem isAlphanum_of_mem_capitalize {word : List Char} (hword : ∀ c ∈ word, isPlain c) :
    ∀ c ∈ capitalize word, c.isAlphanum := by
  cases word with
  | nil => exact fun c hc => nomatch hc
  | cons d word =>
    obtain ⟨hd, hword⟩ := List.forall_mem_cons.mp hword
    obtain ⟨hupper, halphanum, -⟩ := toUppercase_of_isPlain hd
    rw [capitalize, hupper]
    exact List.forall_mem_cons.mpr ⟨halphanum, fun c hc => isAlphanum_of_isPlain (hword c hc)⟩

theorem isAlphanum_of_mem_flatMap_capitalize {words : List (List Char)} (hwords : ∀ w ∈ words, ∀ c ∈ w, isPlain c) :
    ∀ c ∈ words.flatMap capitalize, c.isAlphanum := by
  intro c hc
  obtain ⟨w, hw, hc⟩ := List.mem_flatMap.mp hc
  exact isAlphanum_of_mem_capitalize (hwords w hw) c hc

/-- The words of a name in the casing of a rule. -/
def recased (rule : Rule) (name : List Char) : List Char := if isCamel rule then camelCase name else pascalCase name

/-- The first character of a name that is no underscore is a letter. -/
def beginsWithLetter (name : List Char) : Bool := (name.find? (· != '_')).any Char.isAlpha

theorem exists_recased_eq (rule : Rule) {name : List Char} (hname : ∀ c ∈ name, isNameCharacter c)
    (hletter : beginsWithLetter name) :
    ∃ c rest, leads rule c ∧ (∀ d ∈ rest, d.isAlphanum) ∧ recased rule name = c :: rest := by
  obtain ⟨first, hfirst, halpha⟩ := (Option.any_eq_true ..).mp hletter
  obtain ⟨hlower, -, hisLower⟩ := toLowercase_of_isAlphanum (Bool.or_eq_true_iff.mpr (.inl halpha))
  have hisLower := hisLower halpha
  obtain ⟨word, others, hwords⟩ := exists_words_eq_cons hfirst hlower
  have hplain := isPlain_of_mem_words hname
  rw [hwords, List.forall_mem_cons, List.forall_mem_cons] at hplain
  obtain ⟨⟨hhead, hword⟩, hothers⟩ := hplain
  have hrest : ∀ d ∈ word ++ others.flatMap capitalize, d.isAlphanum := fun d hd =>
    (List.mem_append.mp hd).elim (fun hd => isAlphanum_of_isPlain (hword d hd))
      (isAlphanum_of_mem_flatMap_capitalize hothers d)
  cases hcamel : isCamel rule with
  | true =>
    refine ⟨first.toLower, _, ?_, hrest, ?_⟩
    · rw [leads, if_pos hcamel]
      exact hisLower
    · rw [recased, if_pos hcamel, camelCase, hwords]
      rfl
  | false =>
    obtain ⟨hupper, -, hisUpper⟩ := toUppercase_of_isPlain hhead
    refine ⟨first.toLower.toUpper, _, ?_, hrest, ?_⟩
    · rw [leads, hcamel]
      exact hisUpper hisLower
    · rw [recased, hcamel, pascalCase, hwords, List.flatMap_cons, capitalize, hupper]
      rfl

/-! ### Conventional spellings -/

/-- The part of a name that a rule spells anew, without the mark that it takes off. -/
def base (rule : Rule) (name : List Char) : List Char :=
  match rule with
  | .interfacePrefix => withoutInterfaceMark name
  | .typeParameterPrefix => without ['T'] name
  | .staticFieldPrefix => without ['s', '_'] name
  | .threadStaticFieldPrefix => without ['t', '_'] name
  | _ => name

theorem conventional_eq (rule : Rule) (name : List Char) :
    conventional rule name = mark rule ++ recased rule (base rule name) := by
  cases rule <;> rfl

theorem without_isSuffix (start name : List Char) : without start name <:+ name := by
  unfold without
  split
  · exact List.drop_suffix ..
  · exact List.suffix_refl name

theorem withoutInterfaceMark_isSuffix (name : List Char) : withoutInterfaceMark name <:+ name := by
  unfold withoutInterfaceMark
  split
  · split
    · exact List.suffix_cons ..
    · exact List.suffix_refl _
  · exact List.suffix_refl name

theorem base_isSuffix (rule : Rule) (name : List Char) : base rule name <:+ name := by
  unfold base
  split
  · exact withoutInterfaceMark_isSuffix name
  · exact without_isSuffix ..
  · exact without_isSuffix ..
  · exact without_isSuffix ..
  · exact List.suffix_refl name

/-- The names that are written with ASCII letters, digits and underscores. -/
def IsIdentifier : List Char → Prop
  | [] => False
  | c :: rest => (c.isAlpha ∨ c = '_') ∧ ∀ d ∈ rest, isNameCharacter d

instance : DecidablePred IsIdentifier
  | [] => inferInstanceAs (Decidable False)
  | c :: rest =>
    have := List.decidableBAll (fun d => isNameCharacter d = true) rest
    inferInstanceAs (Decidable ((c.isAlpha ∨ c = '_') ∧ ∀ d ∈ rest, isNameCharacter d))

theorem IsIdentifier.isNameCharacter {name : List Char} (h : IsIdentifier name) : ∀ c ∈ name, isNameCharacter c := by
  cases name with
  | nil => exact h.elim
  | cons c rest =>
    refine List.forall_mem_cons.mpr ⟨?_, h.2⟩
    rcases h.1 with halpha | rfl
    · exact Bool.or_eq_true_iff.mpr (.inl (Bool.or_eq_true_iff.mpr (.inl halpha)))
    · rfl

theorem isAlpha_of_leads {rule : Rule} {c : Char} (h : leads rule c) : c.isAlpha := by
  unfold leads at h
  split at h
  · exact Bool.or_eq_true_iff.mpr (.inr h)
  · exact Bool.or_eq_true_iff.mpr (.inl h)

/-- Marks and letters in front of letters and digits are written like an identifier. -/
theorem HasShape.isIdentifier {rule : Rule} {name : List Char} (h : HasShape rule name) : IsIdentifier name := by
  cases h with
  | @word c rest hc hrest =>
    have hrest : ∀ d ∈ rest, isNameCharacter d := fun d hd => Bool.or_eq_true_iff.mpr (.inl (hrest d hd))
    have halpha := isAlpha_of_leads hc
    have hbehind : ∀ d ∈ c :: rest, isNameCharacter d :=
      List.forall_mem_cons.mpr ⟨Bool.or_eq_true_iff.mpr (.inl (Bool.or_eq_true_iff.mpr (.inl halpha))), hrest⟩
    cases rule with
    | staticFieldPrefix | threadStaticFieldPrefix => exact ⟨.inl rfl, List.forall_mem_cons.mpr ⟨rfl, hbehind⟩⟩
    | camelCaseUnderscoreField => exact ⟨.inr rfl, hbehind⟩
    | interfacePrefix | typeParameterPrefix => exact ⟨.inl rfl, hbehind⟩
    | _ => exact ⟨.inl halpha, hrest⟩
  | mark hrule =>
    subst hrule
    exact ⟨.inl rfl, List.forall_mem_nil _⟩

/-- The conventional spelling has the shape that the rule asks for. -/
theorem hasShape_conventional (rule : Rule) {name : List Char} (hname : IsIdentifier name)
    (hletter : beginsWithLetter (base rule name)) : HasShape rule (conventional rule name) := by
  have hbase : ∀ c ∈ base rule name, isNameCharacter c := fun c hc =>
    hname.isNameCharacter c ((base_isSuffix rule name).subset hc)
  obtain ⟨c, rest, hc, hrest, hrecased⟩ := exists_recased_eq rule hbase hletter
  rw [conventional_eq, hrecased]
  exact .word hc hrest

/-- A name with a letter is no discard. -/
theorem isDiscard_eq_false {rule : Rule} {name : String} (hletter : beginsWithLetter (base rule name.toList)) :
    NamingRule.isDiscard name = false := by
  obtain ⟨c, hfirst, -⟩ := (Option.any_eq_true ..).mp hletter
  have hmem : c ∈ name.toList := (base_isSuffix rule _).subset (List.mem_of_find?_eq_some hfirst)
  refine Bool.eq_false_iff.mpr fun hall => ?_
  have hc := List.find?_some hfirst
  rw [bne_iff_ne] at hc
  exact hc (eq_of_beq (List.all_eq_true.mp hall c hmem))

end Casing

namespace NamingRule

variable {n : NamingRule}

/-- What a naming rule reports of one declaration. -/
def findings (n : NamingRule) (s : Subject) (d : Declaration) : List Violation :=
  if n.rejects d.name then
    [s.violation n.rule d.position (n.message d.name) ((n.suggestion? d.name).map fun name => s!"rename to '{name}'")]
  else []

/-- A naming rule looks at each declaration of its role by itself. -/
theorem check_eq_flatMap (n : NamingRule) (s : Subject) :
    n.check s = (s.withRole n.role).flatMap (n.findings s) := by
  rw [check]
  induction s.withRole n.role with
  | nil => rfl
  | cons d rest ih =>
    rw [List.filter_cons, List.flatMap_cons, ← ih, findings]
    split <;> rfl

/-- The rule with its built-in pattern. -/
theorem exists_make_builtIn {rule : Rule} (hnaming : rule.isNaming) :
    ∃ n, make rule none = .ok n ∧ n.rule = rule ∧ rule.role? = some n.role ∧
      n.accepts = (Casing.builtIn rule).search := by
  obtain ⟨role, hrole⟩ := Option.isSome_iff_exists.mp hnaming
  obtain ⟨pattern, hpattern⟩ := Option.isSome_iff_exists.mp (rule.isSome_defaultPattern?.trans hnaming)
  refine ⟨⟨rule, role, pattern, (Casing.builtIn rule).search, false⟩, ?_, rfl, hrole, rfl⟩
  rw [make, hrole, hpattern]
  simp only [PatternReader.regex, Option.getD_none, Casing.parse?_defaultPattern_eq rule pattern hpattern,
    Option.map_some, Option.isSome_none]

/-- A naming rule with its built-in pattern reports nothing of a name of its shape. Of any other ASCII identifier
whose spelled part begins with a letter it reports one violation, which suggests another identifier that the rule
accepts. -/
theorem builtIn_findings {rule : Rule} (hnaming : rule.isNaming) :
    ∃ n, make rule none = .ok n ∧ rule.role? = some n.role ∧
      ∀ s : Subject, n.check s = (s.withRole n.role).flatMap (n.findings s) ∧
        ∀ d : Declaration,
          (Casing.HasShape rule d.name.toList → n.findings s d = []) ∧
          (Casing.IsIdentifier d.name.toList → Casing.beginsWithLetter (Casing.base rule d.name.toList) →
            ¬ Casing.HasShape rule d.name.toList →
            ∃ new : String, new ≠ d.name ∧ Casing.IsIdentifier new.toList ∧ n.rejects new = false ∧
              n.findings s d =
                [s.violation rule d.position (n.message d.name) (some s!"rename to '{new}'")]) := by
  obtain ⟨n, hmake, hrule, hrole, hbuiltIn⟩ := exists_make_builtIn hnaming
  have haccepts {name : String} (hshape : Casing.HasShape rule name.toList) : n.accepts name = true := by
    rw [hbuiltIn]
    exact Casing.search_builtIn_iff.mpr hshape
  have hrejects {name : String} (hshape : Casing.HasShape rule name.toList) : n.rejects name = false := by
    rw [rejects, haccepts hshape, Bool.not_true, Bool.and_false]
  refine ⟨n, hmake, hrole, fun s => ⟨n.check_eq_flatMap s, fun d => ⟨fun hshape => ?_, fun hname hletter hshape => ?_⟩⟩⟩
  · rw [findings, hrejects hshape]
    rfl
  · have hnew : Casing.HasShape rule (String.ofList (Casing.conventional rule d.name.toList)).toList := by
      rw [String.toList_ofList]
      exact Casing.hasShape_conventional rule hname hletter
    have hne : String.ofList (Casing.conventional rule d.name.toList) ≠ d.name := fun heq => hshape (heq ▸ hnew)
    have hsearch : n.accepts d.name = false := by
      rw [hbuiltIn, ← Bool.not_eq_true, Casing.search_builtIn_iff]
      exact hshape
    have hrejected : n.rejects d.name = true := by
      rw [rejects, Casing.isDiscard_eq_false hletter, hsearch]
      rfl
    have hsuggestion : n.suggestion? d.name = some (String.ofList (Casing.conventional rule d.name.toList)) := by
      rw [suggestion?, hrule]
      exact if_pos (Bool.and_eq_true_iff.mpr ⟨bne_iff_ne.mpr hne, haccepts hnew⟩)
    refine ⟨_, hne, hnew.isIdentifier, hrejects hnew, ?_⟩
    rw [findings, if_pos hrejected, hsuggestion, hrule]
    rfl

/-- The static field `HTTPServer_2x` is no name of its rule and gets another one. -/
theorem builtIn_findings_staticField :
    ∃ n, make .staticFieldPrefix none = .ok n ∧ ∀ s d, d.name = "HTTPServer_2x" →
      ∃ new : String, new ≠ d.name ∧ n.rejects new = false ∧ (n.findings s d).length = 1 := by
  obtain ⟨n, hmake, -, hfindings⟩ := builtIn_findings (show Rule.staticFieldPrefix.isNaming from rfl)
  refine ⟨n, hmake, fun s d hname => ?_⟩
  have hshape : ¬ Casing.HasShape .staticFieldPrefix d.name.toList := by
    rw [hname]
    rintro ⟨⟩
  have hname : Casing.IsIdentifier d.name.toList ∧
      Casing.beginsWithLetter (Casing.base .staticFieldPrefix d.name.toList) := by
    rw [hname]
    decide
  obtain ⟨new, hne, -, haccepts, hone⟩ := ((hfindings s).2 d).2 hname.1 hname.2 hshape
  exact ⟨new, hne, haccepts, by rw [hone, List.length_singleton]⟩

example : String.ofList (Casing.conventional .staticFieldPrefix "HTTPServer_2x".toList) = "s_httpServer2x" := by decide

end NamingRule

end CSharpStyle
