import CSharpStyle.Proofs.CoreGrammar.Syntax
import CSharpStyle.Proofs.Grammar.CreationFile

/-!
# Words and modifiers of core programs

The reader asks of a token what it may begin. For the words of a core program the answers follow from their kinds, and
for the types with a keyword from the list of these keywords.

* `Header.step?_eq`: in front of a word, a header goes on exactly at the modifiers.
* `Header.readOn_prefix`: a header ends behind the modifiers.
* `Cursor.type?_word_eq`: a type that is a single word.
-/

namespace CSharpStyle

open Token

theorem Token.isKeyword_of_text_ne {t : Token} {word : String} (h : t.text ≠ word) : t.isKeyword word = false := by
  rw [isKeyword, beq_eq_false_iff_ne.mpr h, Bool.and_false]

namespace CoreGrammar

/-- What holds of all keywords of built-in types, one by one, holds of each. -/
theorem forall_builtIn {p : String → Prop} (h : ∀ word ∈ Keyword.builtInTypes, p word) {word : String}
    (hword : Keyword.isBuiltInType word) : p word :=
  h word (by simpa [Keyword.isBuiltInType] using hword)

namespace Name

variable (n : Name)

theorem text_ne {word : String} (h : word ∈ ["", "var", "file", "scoped"]) : n.text ≠ word := by
  rintro rfl
  exact n.proper h

end Name

namespace TypeWord

variable (T : TypeWord)

theorem isName_or_isBuiltInType : (T.token.isName || T.token.isBuiltInType) = true := by
  cases T with
  | builtIn word span h => simpa [token, isBuiltInType] using Or.inr h
  | named name => rfl

theorem kind_ne : T.token.kind ≠ .punctuation := by
  cases T <;> simp [token, Name.token]

theorem isPunctuation (mark : String) : T.token.isPunctuation mark = false :=
  not_isPunctuation_of_kind T.kind_ne mark

/-- A keyword that is no built-in type is not the type. -/
theorem isKeyword {word : String} (h : Keyword.isBuiltInType word = false) : T.token.isKeyword word = false := by
  cases T with
  | builtIn word' span h' =>
    have hne : word' ≠ word := by
      rintro rfl
      rw [h] at h'
      cases h'
    simpa [token, Token.isKeyword] using hne
  | named name => rfl

theorem text_ne {word : String} (h : word ∈ ["", "var", "file", "scoped"]) : T.token.text ≠ word := by
  cases T with
  | builtIn word' span h' =>
    have hnot : ∀ word' ∈ Keyword.builtInTypes, word' ∉ ["", "var", "file", "scoped"] := by decide
    rintro rfl
    exact forall_builtIn hnot h' h
  | named name => exact name.text_ne h

end TypeWord

/-! ### Modifiers -/

theorem kind_ne_of_isModifier {t next : Token} (h : isModifier t next) : t.kind ≠ .punctuation := by
  intro hkind
  simp [isModifier, isKeyword, isIdentifier, hkind] at h

/-- What holds of all modifiers and of the word behind them holds of the first token. -/
theorem exists_head {P : Token → Prop} {modifiers : List Token} {next : Token}
    (hchain : (modifiers ++ [next]).IsChain fun t u => isModifier t u)
    (hmodifier : ∀ {t u : Token}, isModifier t u → P t) (hnext : P next) (rest : List Token) :
    ∃ t behind, modifiers ++ next :: rest = t :: behind ∧ P t := by
  cases modifiers with
  | nil => exact ⟨next, rest, rfl, hnext⟩
  | cons t modifiers =>
    obtain ⟨u, more, hmore⟩ : ∃ u more, modifiers ++ [next] = u :: more := List.exists_cons_of_ne_nil (by simp)
    rw [List.cons_append, hmore, List.isChain_cons_cons] at hchain
    exact ⟨t, _, rfl, hmodifier hchain.1⟩

/-- The first token is there and is no mark. -/
def BeginsWithWord (tokens : List Token) : Prop := ∃ t rest, tokens = t :: rest ∧ t.kind ≠ .punctuation

theorem beginsWithWord {modifiers : List Token} {next : Token}
    (hchain : (modifiers ++ [next]).IsChain fun t u => isModifier t u) (hnext : next.kind ≠ .punctuation)
    (rest : List Token) : BeginsWithWord (modifiers ++ next :: rest) :=
  exists_head hchain kind_ne_of_isModifier hnext rest

theorem TypeWord.isModifier (T : TypeWord) (next : Token) : isModifier T.token next = false := by
  have href : T.token.isKeyword "ref" = false := T.isKeyword rfl
  rw [CoreGrammar.isModifier, href]
  cases T with
  | builtIn word span h =>
    have hnone : ∀ word ∈ Keyword.builtInTypes, ({} : Modifiers).add? word = none := by decide
    simp [token, isIdentifier, forall_builtIn hnone h]
  | named name => simp [token, Name.token, isIdentifier, name.text_ne]

end CoreGrammar

/-- Whether a word is an access keyword does not depend on those in front of it. -/
theorem Accessibility.isSome_combine? (level other : Accessibility) (word : String) :
    (level.combine? word).isSome = (other.combine? word).isSome := by
  unfold combine?
  split
  · rfl
  · cases level <;> cases other <;> rfl
  · rfl
  · rfl
  · rfl

theorem Modifiers.isSome_add? (m : Modifiers) (word : String) :
    (m.add? word).isSome = (({} : Modifiers).add? word).isSome := by
  have hcombine := Accessibility.isSome_combine? m.accessibility ({} : Modifiers).accessibility word
  rw [add?, add?]
  cases h : m.accessibility.combine? word with
  | some level =>
    rw [h] at hcombine
    obtain ⟨level', h'⟩ := Option.isSome_iff_exists.mp hcombine.symm
    rw [h']
    rfl
  | none =>
    rw [h] at hcombine
    rw [Option.isNone_iff_eq_none.mp (Option.isSome_eq_false_iff.mp hcombine.symm)]
    simp only [apply_ite Option.isSome, Option.isSome_some, Option.isSome_none]

theorem Modifiers.add?_unmarked (m : Modifiers) {word : String} (h : word ∈ unmarked) : m.add? word = some m := by
  have hnone : ∀ word ∈ unmarked, m.accessibility.combine? word = none := by
    simp only [unmarked, List.forall_mem_cons]
    exact ⟨rfl, rfl, rfl, rfl, rfl, rfl, rfl, rfl, rfl, rfl, rfl, rfl, List.forall_mem_nil _⟩
  have hword : ∀ word ∈ unmarked, word ≠ "static" ∧ word ≠ "const" ∧ word ≠ "readonly" := by decide
  obtain ⟨hstatic, hconst, hreadonly⟩ := hword word h
  rw [add?, hnone word h]
  simp [hstatic, hconst, hreadonly, h]

open CoreGrammar

namespace Header

/-- In front of a word, a header goes on exactly at the modifiers. -/
theorem step?_eq {c : Cursor} {t next : Token} (header : Header) (ht : c.peek? = some t)
    (hnext : c.second? = some next) (hkind : t.kind ≠ .punctuation) (hkind' : next.kind ≠ .punctuation) :
    step? header c =
      if isModifier t next then
        some ({ header with modifiers := (header.modifiers.add? t.text).getD header.modifiers }, c.next)
      else none := by
  have hmark (mark : String) : t.isPunctuation mark = false := not_isPunctuation_of_kind hkind mark
  have hsecond (mark : String) : c.seesSecond mark = false := by
    rw [Cursor.seesSecond, hnext]
    exact not_isPunctuation_of_kind hkind' mark
  rw [step?, ht]
  simp only [hmark, hsecond, Bool.or_self, Bool.false_eq_true, ↓reduceIte, hnext, Option.any_some]
  by_cases hkeyword : t.kind = .keyword
  · have hisome := header.modifiers.isSome_add? t.text
    have hidentifier : t.isIdentifier = false := by rw [isIdentifier, hkeyword]; rfl
    by_cases hnew : t.isKeyword "new"
    · have htext : t.text = "new" := eq_of_beq (Bool.and_eq_true_iff.mp hnew).2
      have hadd := header.modifiers.add?_unmarked (show "new" ∈ Modifiers.unmarked by decide)
      rw [if_pos hnew, isModifier, htext, ← header.modifiers.isSome_add?, hadd, hkeyword]
      rfl
    · rw [if_neg hnew, if_pos hkeyword, isModifier, ← hisome, hkeyword, hidentifier]
      cases header.modifiers.add? t.text with
      | some m => rfl
      | none => simp
  · have hnot (word : String) : t.isKeyword word = false := by simp [isKeyword, hkeyword]
    have hkind : (t.kind == .keyword) = false := beq_eq_false_iff_ne.mpr hkeyword
    rw [if_neg hkeyword, hnot, hnot, isModifier, hnot, hkind]
    by_cases htext : t.text = "file"
    · rw [htext, header.modifiers.add?_unmarked (show "file" ∈ Modifiers.unmarked by decide)]
      simp
    · simp [htext]

/-- A header ends behind the modifiers. -/
theorem readOn_prefix {modifiers : List Token} {next name : Token} {rest : List Token} {c : Cursor} (header : Header)
    (hchain : (modifiers ++ [next]).IsChain fun t u => isModifier t u)
    (hahead : c.ahead = modifiers ++ next :: name :: rest) (hnext : next.kind ≠ .punctuation)
    (hname : name.kind ≠ .punctuation) (hend : isModifier next name = false) :
    ∃ d : Cursor, d.ahead = next :: name :: rest ∧
      readOn header c =
        ({ header with modifiers := modifiers.foldl (fun m t => (m.add? t.text).getD m) header.modifiers }, d) := by
  induction modifiers generalizing header c with
  | nil =>
    refine ⟨c, hahead, ?_⟩
    rw [readOn_eq, step?_eq header (congrArg List.head? hahead) (congrArg (fun ahead => ahead.tail.head?) hahead) hnext
      hname, hend]
    rfl
  | cons t modifiers ih =>
    -- A modifier is one only in front of the right token, so the chain is asked for the second one too.
    obtain ⟨second, behind, hsplit, hkind⟩ := beginsWithWord hchain.tail hnext (name :: rest)
    have hsecond : c.second? = some second := by
      rw [Cursor.second?, hahead, List.cons_append, List.tail_cons, hsplit]
      rfl
    have hmodifier : isModifier t second := by
      cases modifiers <;> cases hsplit <;> exact (List.isChain_cons_cons.mp hchain).1
    obtain ⟨d, hd, hread⟩ := ih { header with modifiers := (header.modifiers.add? t.text).getD header.modifiers }
      hchain.tail (c := c.next) (congrArg List.tail hahead)
    refine ⟨d, hd, ?_⟩
    rw [readOn_eq, step?_eq header (congrArg List.head? hahead) hsecond (kind_ne_of_isModifier hmodifier)
      hkind, if_pos hmodifier]
    exact hread

end Header

namespace Token

/-- A type that is a single word ends in front of a token that cannot go on with it. -/
theorem type?_word_eq {t y : Token} (ht : t.isName || t.isBuiltInType) (hparen : t.isPunctuation "(" = false)
    (hy : ∀ mark ∈ ["<", ".", "::", "?", "*", "["], y.isPunctuation mark = false) (before rest : List Token) :
    Cursor.type? ⟨before, t :: y :: rest⟩ = some (t.text == "var", ⟨t :: before, y :: rest⟩) := by
  have hnot {mark : String} (hmark : mark ∈ ["<", ".", "::", "?", "*", "["]) :
      (Cursor.mk (t :: before) (y :: rest)).sees mark = false := hy mark hmark
  have hinside : Cursor.typeInside 0 ⟨before, t :: y :: rest⟩ = some ⟨t :: before, y :: rest⟩ := by
    rw [Cursor.typeInside_eq]
    simp only [Cursor.peek?, List.head?_cons, hparen, ht, Bool.false_eq_true, ↓reduceIte, Cursor.closeTuples_zero]
    rw [show (Cursor.mk before (t :: y :: rest)).next = ⟨t :: before, y :: rest⟩ from rfl,
      Cursor.qualifiedNameRest_eq_self ⟨hnot (by decide), hnot (by decide), hnot (by decide)⟩,
      Cursor.skipSuffixes_eq_self ⟨hnot (by decide), hnot (by decide), hnot (by decide)⟩]
  have harguments : (Cursor.mk (t :: before) (y :: rest)).typeArguments? = none := by
    rw [Cursor.typeArguments?, Cursor.eat?, hnot (by decide)]
    rfl
  have hqualifier : (Cursor.mk (t :: before) (y :: rest)).seesQualifier = false := by
    rw [Cursor.seesQualifier, hnot (by decide), hnot (by decide)]
    rfl
  rw [Cursor.type?, hinside, show (Cursor.mk before (t :: y :: rest)).next = ⟨t :: before, y :: rest⟩ from rfl,
    harguments, hqualifier]
  simp [Cursor.peek?]

end Token

end CSharpStyle
