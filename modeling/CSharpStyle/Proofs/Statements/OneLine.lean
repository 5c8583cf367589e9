import CSharpStyle.Proofs.Braces.Depth
import CSharpStyle.Proofs.CoreGrammar.Syntax
import CSharpStyle.Proofs.Findings.Distinct
import CSharpStyle.Proofs.Statements.Scan

/-!
# Accessors and statements on one line

Between braces stand accessors or statements, each with its semicolon. A semicolon ends a statement unless it comes
right behind the name of an accessor. Only the token in front of it is looked at: `get => e;` counts as a statement, and
`x = set;` does not.

* `Item`: text with the semicolon that ends it; `Accessor`: an accessor, with or without an expression.
* `crowded_items`: what is found in items on one line.
* `found_on_one_line`: what is found between the braces around accessors and around statements.
-/

namespace CSharpStyle.OneStatementPerLine

open CoreGrammar (Mark Braces)
open Token

/-! ### Items -/

/-- Text with the semicolon that ends it. -/
structure Item where
  body : List Token
  ne_nil : body ≠ []
  enclosed : IsEnclosed [] body
  semicolon : Mark ";"

namespace Item

def tokens (i : Item) : List Token := i.body ++ [i.semicolon.token]

def first (i : Item) : Token := i.body.head i.ne_nil

/-- What is found in the text alone. -/
def inner (i : Item) : List Token := crowded [] none i.body

/-- The semicolon comes behind the name of an accessor. -/
def endsInAccessor (i : Item) : Bool := i.body.getLast?.any isAccessor

/-- A statement without blocks. -/
def IsPlain (i : Item) : Prop :=
  ∀ t ∈ i.body, t.isPunctuation ";" = false ∧ t.isPunctuation "\x7b" = false ∧ t.isPunctuation "\x7d" = false

instance (i : Item) : Decidable i.IsPlain :=
  inferInstanceAs (Decidable (∀ t ∈ i.body,
    t.isPunctuation ";" = false ∧ t.isPunctuation "\x7b" = false ∧ t.isPunctuation "\x7d" = false))

variable (i : Item)

theorem exists_body_eq : ∃ rest, i.body = i.first :: rest :=
  ⟨i.body.tail, (List.cons_head_tail i.ne_nil).symm⟩

/-- An item begins neither with a semicolon nor with a bracket that closes nothing in it. -/
theorem first_isPunctuation : i.first.isPunctuation ";" = false ∧ i.first.isPunctuation "\x7d" = false := by
  obtain ⟨rest, hbody⟩ := i.exists_body_eq
  have henclosed := i.enclosed
  rw [hbody] at henclosed
  constructor
  · refine Bool.eq_false_iff.mpr fun hsemicolon => ?_
    exact (henclosed.step.2.2 hsemicolon).1 rfl
  · refine Bool.eq_false_iff.mpr fun hbrace => ?_
    have hclose := isCloser_of_brace hbrace
    obtain ⟨closers, hclosers, hlength⟩ := Option.map_eq_some_iff.mp henclosed.closed
    obtain ⟨others, rfl, -⟩ := unmatched_of_closer hclosers hclose
    cases hlength

theorem crowded_body (previous : Option Token) : crowded [] previous i.body = i.inner := by
  obtain ⟨rest, hbody⟩ := i.exists_body_eq
  rw [inner, hbody, crowded_cons, crowded_cons, crowdedBehind_eq_nil i.first_isPunctuation.1,
    crowdedBehind_eq_nil i.first_isPunctuation.1]

/-- Nothing is found in an item without braces. -/
theorem inner_eq_nil (h : ∀ t ∈ i.body, t.isPunctuation "\x7b" = false) : i.inner = [] :=
  i.enclosed.crowded_eq_nil List.not_mem_nil h

end Item

/-- What is found in items on one line, behind each other. -/
def crowdedItems : List Item → List Token
  | [] => []
  | i :: items =>
    i.inner ++ (if i.endsInAccessor then [] else (items.head?.map Item.first).toList) ++ crowdedItems items

section

variable {items : List Item} {closing : Mark "\x7d"} {line : Nat} {pending : List String} {previous : Option Token}
  {rest : List Token}

/-- Behind the semicolon of an item the next one is found, unless the item ends in an accessor. -/
theorem Item.crowdedBehind_semicolon (i : Item) (hline : ∀ t ∈ (i :: items).flatMap tokens, t.line = line) :
    crowdedBehind ("\x7b" :: pending) (i.body.getLast?.or previous) i.semicolon.token
      (items.flatMap tokens ++ closing.token :: rest).head? =
        if i.endsInAccessor then [] else (items.head?.map first).toList := by
  have hlast : (i.body.getLast?.or previous).any isAccessor = i.endsInAccessor := by
    rw [endsInAccessor, List.getLast?_eq_some_getLast i.ne_nil]
    rfl
  have hmark : i.semicolon.token.isPunctuation ";" = true := rfl
  rw [crowdedBehind, endsStatement, hlast, hmark, List.head?_cons]
  cases items with
  | nil =>
    -- The brace behind the items begins no statement.
    have hclosing : startsOnSameLine i.semicolon.token (some closing.token) = false := Bool.and_false _
    rw [List.flatMap_nil, List.nil_append, List.head?_cons, hclosing, Bool.and_false, if_neg Bool.false_ne_true]
    exact (ite_self []).symm
  | cons j items =>
    obtain ⟨behind, hbody⟩ := j.exists_body_eq
    have hhead : ((j :: items).flatMap tokens ++ closing.token :: rest).head? = some j.first := by
      rw [List.flatMap_cons, tokens, hbody]
      rfl
    have hsame : j.first.line = i.semicolon.token.line := by
      rw [hline j.first (by simp [tokens, hbody]), hline i.semicolon.token (by simp [tokens])]
    have hstarts : startsOnSameLine i.semicolon.token (some j.first) = true := by
      rw [startsOnSameLine, hsame, j.first_isPunctuation.2, beq_self_eq_true]
      rfl
    rw [hhead, hstarts]
    cases i.endsInAccessor <;> rfl

/-- Items on one line, up to the brace behind them. -/
theorem crowded_items (hline : ∀ t ∈ items.flatMap Item.tokens, t.line = line) :
    crowded ("\x7b" :: pending) previous (items.flatMap Item.tokens ++ closing.token :: rest) =
      crowdedItems items ++ crowded pending (some closing.token) rest := by
  induction items generalizing previous with
  | nil =>
    rw [List.flatMap_nil, List.nil_append, crowded_cons, crowdedBehind_eq_nil rfl]
    rfl
  | cons i items ih =>
    -- The text of the item is enclosed, so that only its semicolon meets the brackets around the items.
    have htokens : (i :: items).flatMap Item.tokens ++ closing.token :: rest =
        i.body ++ i.semicolon.token :: (items.flatMap Item.tokens ++ closing.token :: rest) := by
      simp [Item.tokens]
    have hitems : crowded ("\x7b" :: pending) (some i.semicolon.token)
        (items.flatMap Item.tokens ++ closing.token :: rest) =
          crowdedItems items ++ crowded pending (some closing.token) rest :=
      ih fun t ht => hline t (List.mem_append_right i.tokens ht)
    rw [htokens, ← List.nil_append ("\x7b" :: pending), i.enclosed.crowded_append, i.crowded_body, crowded_cons,
      i.crowdedBehind_semicolon hline, crowdedItems, List.append_assoc, List.append_assoc]
    exact congrArg _ (congrArg _ hitems)

end

/-- Nothing is found if and only if nothing is found in an item alone, and each but the last ends in an accessor. -/
theorem crowdedItems_eq_nil_iff {items : List Item} :
    crowdedItems items = [] ↔ (∀ i ∈ items, i.inner = []) ∧ ∀ i ∈ items.dropLast, i.endsInAccessor := by
  induction items with
  | nil => exact ⟨fun _ => ⟨nofun, nofun⟩, fun _ => rfl⟩
  | cons i items ih =>
    rw [crowdedItems, List.append_eq_nil_iff, List.append_eq_nil_iff, ih, List.forall_mem_cons]
    cases items with
    | nil => simp
    | cons j items =>
      rw [List.dropLast_cons_cons, List.forall_mem_cons]
      cases hends : i.endsInAccessor <;> simp [hends, and_assoc]

section

variable {items : List Item}

/-- Of items in which nothing is found alone, one is found behind each that does not end in an accessor. -/
theorem length_crowdedItems (h : ∀ i ∈ items, i.inner = []) :
    (crowdedItems items).length = items.dropLast.countP (!·.endsInAccessor) := by
  induction items with
  | nil => rfl
  | cons i items ih =>
    obtain ⟨hinner, hitems⟩ := List.forall_mem_cons.mp h
    rw [crowdedItems, hinner, List.nil_append, List.length_append, ih hitems]
    cases items with
    | nil => simp
    | cons j items =>
      rw [List.dropLast_cons_cons, List.countP_cons]
      cases i.endsInAccessor <;> simp [Nat.add_comm]

/-- All but the first are found if and only if none of those in front of the last ends in an accessor. -/
theorem crowdedItems_eq_tail_iff (h : ∀ i ∈ items, i.inner = []) :
    crowdedItems items = items.tail.map Item.first ↔ ∀ i ∈ items.dropLast, i.endsInAccessor = false := by
  constructor
  · intro hall
    have hlength := congrArg List.length hall
    rw [length_crowdedItems h, List.length_map, List.length_tail, ← List.length_dropLast,
      List.countP_eq_length] at hlength
    exact fun i hi => by simpa using hlength i hi
  · intro hnone
    induction items with
    | nil => rfl
    | cons i items ih =>
      obtain ⟨hinner, hitems⟩ := List.forall_mem_cons.mp h
      rw [crowdedItems, hinner, List.nil_append, List.tail_cons]
      cases items with
      | nil => simp [crowdedItems]
      | cons j items =>
        rw [List.dropLast_cons_cons, List.forall_mem_cons] at hnone
        rw [ih hitems hnone.2, hnone.1]
        rfl

end

/-! ### Accessors -/

/-- The expression of an accessor. -/
structure ArrowBody where
  arrow : Mark "=>"
  expression : List Token
  enclosed : IsEnclosed [] expression

/-- An accessor `get;` or `get => e;`, with modifiers in front of it. -/
structure Accessor where
  modifiers : List Token
  isWord : ∀ t ∈ modifiers, t.kind ≠ .punctuation
  name : Token
  isAccessor : isAccessor name
  value : Option ArrowBody
  semicolon : Mark ";"

namespace Accessor

variable (a : Accessor)

/-- The modifiers and the name. -/
def words : List Token := a.modifiers ++ [a.name]

theorem kind_of_mem_words : ∀ t ∈ a.words, t.kind ≠ .punctuation := by
  refine List.forall_mem_append.mpr ⟨a.isWord, List.forall_mem_singleton.mpr ?_⟩
  obtain ⟨hidentifier, -⟩ := Bool.and_eq_true_iff.mp a.isAccessor
  rw [show a.name.kind = .identifier from eq_of_beq hidentifier]
  exact nofun

/-- What comes behind the name, up to the semicolon. -/
def behindName : List Token := a.value.elim [] fun v => v.arrow.token :: v.expression

theorem enclosed : IsEnclosed [] (a.words ++ a.behindName) := by
  have hbehind : IsEnclosed [] a.behindName := by
    rw [behindName]
    cases a.value with
    | none => exact ⟨rfl, nofun⟩
    | some v =>
      have harrow : ∀ t ∈ [v.arrow.token],
          t.isOpener = false ∧ t.isCloser = false ∧ t.isPunctuation ";" = false :=
        List.forall_mem_singleton.mpr ⟨rfl, rfl, rfl⟩
      exact v.enclosed.append harrow
  refine hbehind.append fun t ht => ?_
  have hkind : (t.kind == .punctuation) = false := beq_eq_false_iff_ne.mpr (a.kind_of_mem_words t ht)
  rw [isOpener, isCloser, isPunctuation, hkind]
  exact ⟨rfl, rfl, rfl⟩

def item : Item where
  body := a.words ++ a.behindName
  ne_nil := List.append_ne_nil_of_left_ne_nil (List.append_ne_nil_of_right_ne_nil _ (List.cons_ne_nil _ _)) _
  enclosed := a.enclosed
  semicolon := a.semicolon

/-- The accessor has no expression, or one that ends with the name of an accessor. -/
def isExempt : Bool := a.value.all fun v => v.expression.getLast?.any OneStatementPerLine.isAccessor

theorem endsInAccessor_item : a.item.endsInAccessor = a.isExempt := by
  have hwords : a.words.getLast? = some a.name := List.getLast?_concat ..
  rw [Item.endsInAccessor, show a.item.body = a.words ++ a.behindName from rfl, isExempt, behindName,
    List.getLast?_append, hwords]
  cases a.value with
  | none => exact a.isAccessor
  | some v =>
    rw [Option.elim_some, Option.all_some, List.getLast?_cons]
    cases v.expression.getLast? <;> rfl

/-- Nothing is found in an expression without braces. -/
theorem inner_item_eq_nil (h : ∀ v ∈ a.value, ∀ t ∈ v.expression, t.isPunctuation "\x7b" = false) :
    a.item.inner = [] := by
  have hwords : ∀ t ∈ a.words, t.isPunctuation "\x7b" = false :=
    fun t ht => not_isPunctuation_of_kind (a.kind_of_mem_words t ht) _
  have hbehind : ∀ t ∈ a.behindName, t.isPunctuation "\x7b" = false := by
    rw [behindName]
    cases hvalue : a.value with
    | none => exact nofun
    | some v => exact List.forall_mem_cons.mpr ⟨rfl, h v hvalue⟩
  exact a.item.inner_eq_nil (List.forall_mem_append.mpr ⟨hwords, hbehind⟩)

end Accessor

/-! ### Blocks -/

/-- Apart from tokens in front of a part of the file and behind it, the check reports these tokens. -/
def FindsBetween (s : Subject) (front found behind : List Token) : Prop :=
  ∃ before after, before.Sublist front ∧ after.Sublist behind ∧
    (check s).map (·.place) = (before ++ found ++ after).map (·.start.place)

variable {s : Subject} {front behind : List Token} {braces : Braces} {line : Nat}

/-- What is found between braces around items on one line. -/
theorem findsBetween_items {items : List Item}
    (hs : s.significant = front ++ braces.around (items.flatMap Item.tokens) ++ behind)
    (hline : ∀ t ∈ items.flatMap Item.tokens, t.line = line) :
    FindsBetween s (front ++ [braces.opening.token]) (crowdedItems items) (braces.closing.token :: behind) := by
  have htokens : s.significant =
      front ++ braces.opening.token :: (items.flatMap Item.tokens ++ braces.closing.token :: behind) := by
    rw [hs, CoreGrammar.Brackets.around]
    simp
  refine ⟨crowded [] none (front ++ [braces.opening.token]),
    crowded (front.foldl pendingBehind []) (some braces.closing.token) behind,
    (crowded_sublist ..).trans (List.tail_sublist _),
    ((crowded_sublist ..).trans (List.tail_sublist behind)).trans (List.sublist_cons_self ..), ?_⟩
  have hopening : pendingBehind (front.foldl pendingBehind []) braces.opening.token =
      "\x7b" :: front.foldl pendingBehind [] := rfl
  have hfound : crowded [] none s.significant = crowded [] none (front ++ [braces.opening.token]) ++
      crowdedItems items ++ crowded (front.foldl pendingBehind []) (some braces.closing.token) behind := by
    rw [htokens, crowded_append, crowded_cons, crowdedBehind_eq_nil rfl, hopening, crowded_items hline,
      List.nil_append, List.append_assoc]
  rw [check, List.map_map, hfound]
  rfl

/-- What is found between braces, if everything between them stands on one line. Nothing is found between accessors if
and only if nothing is found in an expression alone, as in all without braces, and each expression but that of the last
accessor ends with the name of an accessor. All statements but the first are found if and only if none in front of the
last ends with such a name. -/
theorem found_on_one_line :
    (∀ accessors : List Accessor,
      s.significant = front ++ braces.around ((accessors.map (·.item)).flatMap Item.tokens) ++ behind →
      (∀ t ∈ (accessors.map (·.item)).flatMap Item.tokens, t.line = line) →
        FindsBetween s (front ++ [braces.opening.token]) (crowdedItems (accessors.map (·.item)))
          (braces.closing.token :: behind) ∧
        (crowdedItems (accessors.map (·.item)) = [] ↔
          (∀ a ∈ accessors, a.item.inner = []) ∧ ∀ a ∈ accessors.dropLast, a.isExempt) ∧
        ∀ a ∈ accessors, (∀ v ∈ a.value, ∀ t ∈ v.expression, t.isPunctuation "\x7b" = false) → a.item.inner = []) ∧
    ∀ statements : List Item, (∀ i ∈ statements, i.IsPlain) →
      s.significant = front ++ braces.around (statements.flatMap Item.tokens) ++ behind →
      (∀ t ∈ statements.flatMap Item.tokens, t.line = line) →
        FindsBetween s (front ++ [braces.opening.token]) (crowdedItems statements) (braces.closing.token :: behind) ∧
        (crowdedItems statements).length = statements.dropLast.countP (!·.endsInAccessor) ∧
        (crowdedItems statements = statements.tail.map Item.first ↔
          ∀ i ∈ statements.dropLast, i.endsInAccessor = false) := by
  constructor
  · intro accessors hs hline
    refine ⟨findsBetween_items hs hline, ?_, fun a _ => a.inner_item_eq_nil⟩
    rw [crowdedItems_eq_nil_iff, ← List.map_dropLast, List.forall_mem_map, List.forall_mem_map]
    simp only [Accessor.endsInAccessor_item]
  · intro statements hplain hs hline
    have hinner : ∀ i ∈ statements, i.inner = [] :=
      fun i hi => i.inner_eq_nil fun t ht => (hplain i hi t ht).2.1
    exact ⟨findsBetween_items hs hline, length_crowdedItems hinner, crowdedItems_eq_tail_iff hinner⟩

/-- Nothing is found between accessors without expressions. Of three statements only the last is found, as the first
assigns a variable with the name of an accessor. -/
theorem found_on_one_line_accessor_names :
    let source := "class C \x7b int P \x7b get; private set; \x7d void M() \x7b x = set; y = 1; z(); \x7d \x7d"
    let s := Subject.ofStream ⟨"C.cs"⟩ source (.ofSource source) none .unknown
    let span (i : Nat) := s.significant[i]!.span
    let mark (text : String) (i : Nat) : Token := ⟨.punctuation, text, span i⟩
    let word (text : String) (i : Nat) : Token := ⟨.identifier, text, span i⟩
    FindsBetween s (s.significant.take 5 ++ [mark "\x7b" 5]) [] (mark "\x7d" 11 :: s.significant.drop 12) ∧
      FindsBetween s (s.significant.take 16 ++ [mark "\x7b" 16]) [word "z" 25]
        (mark "\x7d" 29 :: s.significant.drop 30) := by
  intro source s span mark word
  let accessors : List Accessor :=
    [⟨[], nofun, word "get" 6, rfl, none, ⟨span 7⟩⟩,
      ⟨[⟨.keyword, "private", span 8⟩], by decide +kernel, word "set" 9, rfl, none, ⟨span 10⟩⟩]
  let statements : List Item :=
    [⟨[word "x" 17, mark "=" 18, word "set" 19], nofun, by decide +kernel, ⟨span 20⟩⟩,
      ⟨[word "y" 21, mark "=" 22, ⟨.literal, "1", span 23⟩], nofun, by decide +kernel, ⟨span 24⟩⟩,
      ⟨[word "z" 25, mark "(" 26, mark ")" 27], nofun, by decide +kernel, ⟨span 28⟩⟩]
  have hproperty := (@found_on_one_line s (s.significant.take 5) (s.significant.drop 12) ⟨⟨span 5⟩, ⟨span 11⟩⟩ 1).1
    accessors (by decide +kernel) (by decide +kernel)
  have hmethod := (@found_on_one_line s (s.significant.take 16) (s.significant.drop 30) ⟨⟨span 16⟩, ⟨span 29⟩⟩ 1).2
    statements (by decide +kernel) (by decide +kernel) (by decide +kernel)
  have hnone : crowdedItems (accessors.map (·.item)) = [] := hproperty.2.1.mpr ⟨by decide +kernel, by decide +kernel⟩
  have hlast : crowdedItems statements = [word "z" 25] := rfl
  exact ⟨hnone ▸ hproperty.1, hlast ▸ hmethod.1⟩

/-- The second accessor is found behind the expression of the first one, and the second statement is not found behind a
variable with the name of an accessor. -/
theorem found_behind_expression :
    let source :=
      "class C \x7b int P \x7b get => _x; set => _x = value; \x7d void M() \x7b x = set; y = 1; \x7d \x7d"
    let s := Subject.ofStream ⟨"C.cs"⟩ source (.ofSource source) none .unknown
    let span (i : Nat) := s.significant[i]!.span
    let mark (text : String) (i : Nat) : Token := ⟨.punctuation, text, span i⟩
    let word (text : String) (i : Nat) : Token := ⟨.identifier, text, span i⟩
    let braces (i j : Nat) : Braces := ⟨⟨span i⟩, ⟨span j⟩⟩
    let accessors : List Accessor :=
      [⟨[], nofun, word "get" 6, rfl, some ⟨⟨span 7⟩, [word "_x" 8], ⟨rfl, by decide +kernel⟩⟩, ⟨span 9⟩⟩,
        ⟨[], nofun, word "set" 10, rfl,
          some ⟨⟨span 11⟩, [word "_x" 12, mark "=" 13, word "value" 14], ⟨rfl, by decide +kernel⟩⟩, ⟨span 15⟩⟩]
    let statements : List Item :=
      [⟨[word "x" 22, mark "=" 23, word "set" 24], nofun, ⟨rfl, by decide +kernel⟩, ⟨span 25⟩⟩,
        ⟨[word "y" 26, mark "=" 27, ⟨.literal, "1", span 28⟩], nofun, ⟨rfl, by decide +kernel⟩, ⟨span 29⟩⟩]
    s.significant = s.significant.take 5 ++ (braces 5 16).around ((accessors.map (·.item)).flatMap Item.tokens) ++
        s.significant.drop 17 ∧
      s.significant = s.significant.take 21 ++ (braces 21 30).around (statements.flatMap Item.tokens) ++
        s.significant.drop 31 ∧
      (∀ t ∈ s.significant, t.line = 1) ∧ (∀ i ∈ statements, i.IsPlain) ∧
      (check s).map (·.place) = [(word "set" 10).start.place] := by
  decide +kernel

end CSharpStyle.OneStatementPerLine
