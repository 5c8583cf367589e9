import CSharpStyle.Proofs.CoreGrammar.Types

/-!
# Core programs are read as they are written

* `Clean.directive` and `Clean.namespaceBlock`: the items of a file and of a namespace.
* `Items.reads`: items of a namespace or a file are read, and recorded as their tree says, whatever comes behind them.
* `CompilationUnit.ofTokens_core`: a file is read without a defect, and its outline is that of its tree.
-/

namespace CSharpStyle

open Token CoreGrammar Reading

/-! ### Dotted names -/

namespace CoreGrammar.DottedName

variable (n : DottedName)

/-- A dotted name consists of identifiers and dots. -/
theorem of_mem {t : Token} (h : t ∈ n.tokens) : t.isIdentifier ∨ t.isPunctuation "." := by
  rw [tokens, List.mem_cons, List.mem_flatMap] at h
  obtain rfl | ⟨other, -, h⟩ := h
  · exact .inl rfl
  · rw [List.mem_pair] at h
    obtain rfl | rfl := h
    · exact .inr rfl
    · exact .inl rfl

theorem text_ne_empty : (n.text == "") = false := by
  have hfirst : n.first.text ≠ "" := n.first.text_ne (by decide)
  refine beq_eq_false_iff_ne.mpr fun hempty => hfirst ?_
  rw [text, joinedText, tokens, List.map_cons, String.join_cons] at hempty
  exact (String.append_eq_empty_iff.mp hempty).1

/-- Behind a dotted name and `;` a using directive has come to its end. -/
theorem endsDirective (others : List (Mark "." × Name)) (semicolon : Mark ";") (rest : List Token) :
    Cursor.endsDirective ((others.flatMap fun other => [other.1.token, other.2.token]) ++ semicolon.token :: rest) := by
  induction others with
  | nil =>
    rw [List.flatMap_nil, List.nil_append, Cursor.endsDirective.eq_def]
    rfl
  | cons other others ih =>
    obtain ⟨dot, name⟩ := other
    simp only [List.flatMap_cons, List.cons_append, List.nil_append]
    rw [Cursor.endsDirective.eq_def]
    exact ih

end CoreGrammar.DottedName

namespace Reading.Clean

variable {s : Reading} {rest : List Token} {o : Outline}

/-- The text of some tokens is taken up to the first token that is not part of it. -/
theorem takeText {tokens : List Token} {u : Token} (h : s.Clean (tokens ++ u :: rest) o) {p : Token → Bool}
    (hp : ∀ t ∈ tokens, p t) (hu : p u = false) :
    ∃ v : Reading, s.takeText p = (joinedText tokens, v) ∧ v.Clean (u :: rest) o ∧
      v.cursor.tokens = s.cursor.tokens := by
  have htake : s.ahead.takeWhile p = tokens := by
    rw [h.ahead, List.takeWhile_append_of_pos hp, List.takeWhile_cons_of_neg (Bool.eq_false_iff.mp hu), List.append_nil]
  have hdrop : s.ahead.dropWhile p = u :: rest := by
    rw [h.ahead, List.dropWhile_append_of_pos hp, List.dropWhile_cons_of_neg (Bool.eq_false_iff.mp hu)]
  refine ⟨s.move (.skipWhile p), by rw [Reading.takeText, htake], h.cursor hdrop, ?_⟩
  show ((s.ahead.takeWhile p).reverse ++ s.cursor.before).reverse ++ s.ahead.dropWhile p = _
  rw [List.reverse_append, List.reverse_reverse, List.append_assoc, List.takeWhile_append_dropWhile]
  rfl

theorem eatKeyword {t : Token} (h : s.Clean (t :: rest) o) {word : String} (ht : t.isKeyword word) :
    s.cursor.eatKeyword? word = some s.next.cursor := by
  rw [Cursor.eatKeyword?, if_pos]
  · rfl
  · exact (h.toAt.seesKeyword word).trans ht

theorem skipKeyword_none {t : Token} (h : s.Clean (t :: rest) o) {word : String} (ht : t.isKeyword word = false) :
    s.cursor.skipKeyword word = s.cursor := by
  rw [Cursor.skipKeyword, Cursor.eatKeyword?, if_neg]
  · rfl
  · exact Bool.eq_false_iff.mp ((h.toAt.seesKeyword word).trans ht)

/-! ### Using directives -/

theorem seesUsingDirective (word : Word "using") (target : DottedName) (semicolon : Mark ";")
    (h : s.Clean (word.token :: (target.tokens ++ semicolon.token :: rest)) o) : s.cursor.seesUsingDirective := by
  rw [Cursor.seesUsingDirective, h.skipKeyword_none rfl, h.eatKeyword rfl]
  simp only [show s.next.cursor.ahead = target.first.token :: (_ ++ semicolon.token :: rest) from h.next.ahead]
  rw [DottedName.endsDirective target.others semicolon rest, Bool.and_true]
  exact Bool.or_true _

/-- No sign `=` follows the first name of a target without alias. -/
theorem aliasName_none (target : DottedName) (semicolon : Mark ";")
    (h : s.Clean (target.tokens ++ semicolon.token :: rest) o) : s.aliasName = (none, s) := by
  obtain ⟨first, others⟩ := target
  have hbehind : s.next.eat? "=" = none := by
    refine h.next.eat_none fun t ht => ?_
    cases others with
    | nil => cases ht; rfl
    | cons other others => cases ht; rfl
  rw [Reading.aliasName, h.toAt.name (t := first.token) rfl]
  simp only [hbehind]

/-- A using directive is recorded with the namespace around it. -/
theorem directive (word : Word "using") (target : DottedName) (semicolon : Mark ";")
    (h : s.Clean (word.token :: (target.tokens ++ semicolon.token :: rest)) o) {body : NamespaceBody}
    {namespaceName : Option String} (hinside : body.insideNamespace = namespaceName.isSome)
    (hscope : o.heading? body.scope = some (namespaceName, none)) :
    (usingDirective body s).Clean rest
      ((Contents.directive
        { target := target.text, aliasName := none, isStatic := false, isGlobal := false, position := word.span.start
          insideNamespace := namespaceName.isSome, namespaceName } .done).record body.scope o) := by
  have htarget := h.next
  have hname : (if namespaceName.isSome then s.outline.scopeName body.scope else none) = namespaceName := by
    rw [h.outline, Outline.scopeName_eq, hscope]
    cases namespaceName <;> rfl
  have hglobal : s.seesKeyword "global" = false := h.toAt.seesKeyword "global"
  have husing : s.move (fun c => (c.skipKeyword "global").skipKeyword "using") = s.next := by
    rw [move, h.skipKeyword_none rfl, Cursor.skipKeyword, h.eatKeyword rfl]
    rfl
  have hstatic : s.next.seesKeyword "static" = false := htarget.toAt.seesKeyword "static"
  have hmove : s.next.move (·.skipKeyword "static") = s.next := by
    rw [move, htarget.skipKeyword_none rfl]
  -- No dot and no identifier is a mark that ends the target.
  have hstop : ∀ t ∈ target.tokens, !(t.isPunctuation ";" || t.isPunctuation "\x7d") := by
    intro t ht
    rcases target.of_mem ht with ht | ht
    · simp only [not_isPunctuation_of_isIdentifier ht, Bool.or_self, Bool.not_false]
    · rw [isPunctuation_of_ne ht (by decide), isPunctuation_of_ne ht (by decide)]
      rfl
  obtain ⟨v, htake, hv, -⟩ := htarget.takeText hstop rfl
  have hsemicolon : v.require ";" (.expected "';' after using directive") = v.next := by
    rw [require, hv.toAt.eat ";" rfl]
  rw [usingDirective, hglobal, h.position]
  simp only [husing, hstatic, hmove, htarget.aliasName_none, htake, hsemicolon, hinside, hname]
  refine ⟨hv.next.ahead, ?_, hv.next.errors, hv.next.moving⟩
  rw [hv.next.outline]
  rfl

theorem directiveRound (members : NamespaceReader) (body : NamespaceBody) (word : Word "using") (target : DottedName)
    (semicolon : Mark ";") (h : s.Clean (word.token :: (target.tokens ++ semicolon.token :: rest)) o) :
    namespaceRound members body s = .again (usingDirective body s) := by
  have hbrace : word.token.isPunctuation "\x7d" = false := rfl
  rw [namespaceRound, h.toAt.peek]
  simp only [hbrace, h.seesUsingDirective word target semicolon, Bool.false_eq_true, ↓reduceIte]

/-! ### Namespaces -/

theorem not_seesUsingDirective {t : Token} (h : s.Clean (t :: rest) o) (ht : t.text ≠ "global" ∧ t.text ≠ "using") :
    s.cursor.seesUsingDirective = false := by
  rw [Cursor.seesUsingDirective, h.skipKeyword_none (isKeyword_of_text_ne ht.1), Cursor.eatKeyword?, if_neg]
  exact Bool.eq_false_iff.mp ((h.toAt.seesKeyword "using").trans (isKeyword_of_text_ne ht.2))

/-- A namespace opens a scope behind its name, and is read in it behind its brace. -/
theorem namespaceBlock (members : NamespaceReader) (word : Word "namespace") (name : DottedName) (opening : Mark "\x7b")
    (h : s.Clean (word.token :: (name.tokens ++ opening.token :: rest)) o) (body : NamespaceBody) :
    ∃ v : Reading, v.Clean rest (o.addScope .namespaceBody (some name.text) none body.scope).2 ∧
      v.cursor.tokens = s.cursor.tokens ∧
      namespaceDeclaration members body s =
        .again (members ⟨(o.addScope .namespaceBody (some name.text) none body.scope).1, true, some opening.span.start⟩
          v) := by
  have hword : ∀ t ∈ name.tokens, t.isName || t.isPunctuation "." || t.isPunctuation "::" := by
    intro t ht
    rcases name.of_mem ht with ht | ht
    · rw [isName, ht, Bool.true_or, Bool.true_or, Bool.true_or]
    · rw [ht, Bool.or_true, Bool.true_or]
  obtain ⟨v, htake, hv, htokens⟩ := h.next.takeText hword rfl
  obtain ⟨hscope, hopened⟩ := hv.openScope .namespaceBody (some name.text) body.scope
  let w := (v.openScope .namespaceBody (some name.text) body.scope).2
  have hw : w.Clean (opening.token :: rest) _ := hopened
  refine ⟨w.next, hw.next, hw.tokens_next.trans (htokens.trans h.tokens_next), ?_⟩
  have hempty : (joinedText name.tokens == "") = false := name.text_ne_empty
  rw [namespaceDeclaration, htake]
  simp only [hempty, Bool.false_eq_true, ↓reduceIte]
  rw [show v.openScope .namespaceBody (some (joinedText name.tokens)) body.scope = (_, w) from rfl]
  simp only [hw.toAt.eat_none ";" rfl, hw.toAt.eat "\x7b" rfl, hw.position, ← hscope]
  rfl

theorem namespaceRound_block (members : NamespaceReader) (body : NamespaceBody) (word : Word "namespace")
    (h : s.Clean (word.token :: rest) o) : namespaceRound members body s = namespaceDeclaration members body s := by
  have hbrace : word.token.isPunctuation "\x7d" = false := rfl
  have hkeyword : word.token.isKeyword "namespace" = true := rfl
  have husing := h.not_seesUsingDirective (show "namespace" ≠ "global" ∧ "namespace" ≠ "using" by decide)
  rw [namespaceRound, h.toAt.peek]
  simp only [hbrace, husing, hkeyword, Bool.false_eq_true, ↓reduceIte]

end Reading.Clean

/-! ### Types -/

namespace CoreGrammar

variable {s : Reading} {rest : List Token} {o : Outline}

/-- The words that begin something else than a type where a file or a namespace holds one. -/
def itemWords : List String := ["global", "using", "namespace", "alias"]

theorem text_of_isModifier {t next : Token} (h : isModifier t next) : t.text ∉ itemWords := by
  intro htext
  have hnone : ∀ word ∈ itemWords, ({} : Modifiers).add? word = none ∧ word ≠ "ref" ∧ word ≠ "file" := by decide
  obtain ⟨hadd, href, hfile⟩ := hnone t.text htext
  simp [isModifier, isKeyword, hadd, href, hfile] at h

namespace TypeFrame

variable (frame : TypeFrame)

/-- In front of a type nothing looks like a directive, a namespace or an external alias. -/
theorem head (rest : List Token) :
    ∃ t behind, frame.opening ++ rest = t :: behind ∧ t.kind ≠ .punctuation ∧ t.text ∉ itemWords ∧
      (t.isKeyword "extern" && behind.head?.any (·.text == "alias")) = false := by
  obtain ⟨keyword, word, ⟨modifiers, hchain⟩, name, braces⟩ := frame
  have hword : keyword.word ∉ itemWords := by cases keyword <;> decide
  simp only [opening, List.append_assoc, List.cons_append, List.nil_append]
  cases modifiers with
  | nil =>
    refine ⟨word.token, _, rfl, by rintro ⟨⟩, hword, ?_⟩
    cases keyword <;> rfl
  | cons t modifiers =>
    -- The token behind the first modifier is a modifier or the keyword of the type.
    obtain ⟨u, behind, hsplit, hu⟩ := exists_head hchain.tail text_of_isModifier hword
      (name.token :: braces.opening.token :: rest)
    obtain ⟨v, more, hmore, -⟩ := exists_head hchain.tail text_of_isModifier hword []
    have ht : isModifier t v := by
      rw [List.cons_append, hmore, List.isChain_cons_cons] at hchain
      exact hchain.1
    have halias : u.text ≠ "alias" := fun heq => hu (heq ▸ by decide)
    rw [List.cons_append, hsplit]
    refine ⟨t, _, rfl, kind_ne_of_isModifier ht, text_of_isModifier ht, ?_⟩
    rw [List.head?_cons, Option.any_some, beq_eq_false_iff_ne.mpr halias, Bool.and_false]

theorem namespaceRound (members : NamespaceReader) (body : NamespaceBody) (h : s.Clean (frame.opening ++ rest) o) :
    Reading.namespaceRound members body s = .again (s.progress (typeOrStatement body.scope)) := by
  obtain ⟨t, behind, hsplit, hkind, htext, halias⟩ := frame.head rest
  rw [hsplit] at h
  have hnot {word : String} (hword : word ∈ itemWords) : t.text ≠ word := fun heq => htext (heq ▸ hword)
  have husing := h.not_seesUsingDirective ⟨hnot (by decide), hnot (by decide)⟩
  have hnamespace : t.isKeyword "namespace" = false := isKeyword_of_text_ne (hnot (by decide))
  have hextern : (t.isKeyword "extern" && s.cursor.second?.any (·.text == "alias")) = false := by
    rw [show s.cursor.second? = behind.head? from congrArg (fun ahead => ahead.tail.head?) h.ahead]
    exact halias
  rw [Reading.namespaceRound, h.toAt.peek]
  simp only [not_isPunctuation_of_kind hkind, husing, hnamespace, hextern, Bool.false_eq_true, ↓reduceIte]

/-- A type outside all types is one of the items of a file or a namespace. -/
theorem typeOrStatement_eq (h : s.Clean (frame.opening ++ rest) o) (scope : ScopeId) :
    ∃ v : Reading, v.Clean (frame.word.token :: frame.name.token :: frame.braces.opening.token :: rest) o ∧
      v.cursor.tokens = s.cursor.tokens ∧
      Reading.typeOrStatement scope s = TypeDeclaration.read scope ⟨frame.modifiers.modifiers, false⟩ v := by
  obtain ⟨v, hheader, hsees, hv, htokens⟩ := frame.header h
  refine ⟨v, hv, htokens, ?_⟩
  rw [Reading.typeOrStatement, hheader]
  simp only [hsees, ↓reduceIte]

/-- It is recorded with the accessibility that its modifiers say. -/
theorem typeOrStatement {members : Members} (h : s.Clean (frame.tokens members.tokens ++ rest) o)
    (hrest : Follows rest) {scope : ScopeId} {name : Option String} (hscope : o.heading? scope = some (name, none)) :
    (Reading.typeOrStatement scope s).Clean rest
      ((frame.contents frame.modifiers.modifiers.accessibility (members.contents frame.keyword.kind) .done).record scope
        o) := by
  simp only [frame.tokens_eq, List.append_assoc] at h
  obtain ⟨v, hv, -, hread⟩ := frame.typeOrStatement_eq h scope
  rw [hread]
  exact frame.read members.reads hv hrest hscope ⟨frame.modifiers.modifiers, false⟩

end TypeFrame

end CoreGrammar

/-! ### Files -/

namespace CoreGrammar

variable {s : Reading} {rest : List Token} {o : Outline} {body : NamespaceBody}

namespace Items

/-- Items of a namespace or a file are recorded in its scope, and the namespace or the file goes on behind them. -/
def Reads (items : Items) : Prop :=
  ∀ {s : Reading} {ahead : List Token} {o : Outline} {namespaceName : Option String} (body : NamespaceBody),
    body.insideNamespace = namespaceName.isSome → o.heading? body.scope = some (namespaceName, none) →
      Follows ahead → s.Clean (items.tokens ++ ahead) o →
      ∃ v : Reading, v.Clean ahead ((items.contents namespaceName).record body.scope o) ∧
        v.cursor.tokens = s.cursor.tokens ∧ body.read s = body.read v

/-- No item continues a type. -/
theorem follows (items : Items) {ahead : List Token} (h : Follows ahead) : Follows (items.tokens ++ ahead) := by
  cases items with
  | done => exact h
  | directive word target semicolon more => exact follows_of_beginsWithWord ⟨word.token, _, rfl, by rintro ⟨⟩⟩
  | block word name braces inner more => exact follows_of_beginsWithWord ⟨word.token, _, rfl, by rintro ⟨⟩⟩
  | type frame members more =>
    rw [tokens, List.append_assoc]
    exact follows_of_beginsWithWord (frame.beginsWithWord _ _)

/-- The items of a namespace are read up to its brace. -/
theorem Reads.closed {items : Items} (hitems : items.Reads) {closing : Mark "\x7d"} {name : String}
    (h : s.Clean (items.tokens ++ closing.token :: rest) o) {scope : ScopeId}
    (hscope : o.heading? scope = some (some name, none)) (opening : Position) :
    (NamespaceBody.read ⟨scope, true, some opening⟩ s).Clean rest ((items.contents (some name)).record scope o) := by
  have hfollows : Follows (closing.token :: rest) := by
    intro t ht
    cases ht
    exact ⟨rfl, rfl⟩
  obtain ⟨v, hv, -, hread⟩ := hitems ⟨scope, true, some opening⟩ rfl hscope hfollows h
  have hend : namespaceRound NamespaceBody.read ⟨scope, true, some opening⟩ v = .done v.next := by
    have hbrace : closing.token.isPunctuation "\x7d" = true := rfl
    rw [namespaceRound, hv.toAt.peek]
    simp only [hbrace, Option.isSome_some, ↓reduceIte]
  rw [hread, NamespaceBody.read_eq hv.moving, rounds_of_done hend]
  exact hv.next

/-- A round reads an item, and the rounds behind it the items that follow. -/
theorem Reads.step {more : Items} (ih : more.Reads) {ahead behind : List Token} (h : s.Clean ahead o)
    (hbehind : Follows behind) {namespaceName : Option String} (hinside : body.insideNamespace = namespaceName.isSome)
    (hscope : o.heading? body.scope = some (namespaceName, none)) {w : Reading}
    (hround : namespaceRound NamespaceBody.read body s = .again w) {item : Contents}
    (hread : w.Clean (more.tokens ++ behind) (item.record body.scope o)) :
    ∃ v : Reading, v.Clean behind ((more.contents namespaceName).record body.scope (item.record body.scope o)) ∧
      v.cursor.tokens = s.cursor.tokens ∧ body.read s = body.read v := by
  obtain ⟨v, hv, htokens, hbody⟩ := ih body hinside (item.heading_record hscope) hbehind hread
  obtain ⟨hagain, hsound⟩ := namespaceBody_of_again h.moving hround
  exact ⟨v, hv, htokens.trans hsound.inside, hagain.trans hbody⟩

theorem reads (items : Items) : items.Reads := by
  induction items with
  | done =>
    intro s ahead o namespaceName body hinside hscope hahead h
    exact ⟨s, h, rfl, rfl⟩
  | directive word target semicolon more ih =>
    intro s ahead o namespaceName body hinside hscope hahead h
    simp only [tokens, List.append_assoc, List.cons_append] at h
    have hround := h.directiveRound NamespaceBody.read body word target semicolon
    exact ih.step h hahead hinside hscope hround (h.directive word target semicolon hinside hscope)
  | block word name braces inner more ihInner ihMore =>
    intro s ahead o namespaceName body hinside hscope hahead h
    simp only [tokens, Brackets.around, List.append_assoc, List.cons_append] at h
    obtain ⟨v, hv, -, hround⟩ := h.namespaceBlock NamespaceBody.read word name braces.opening body
    rw [← h.namespaceRound_block NamespaceBody.read body word] at hround
    have hread := ihInner.closed hv ((Outline.heading_addScope ..).trans (if_pos rfl)) braces.opening.span.start
    let item : Contents := .scope .namespaceBody (some name.text) none (inner.contents (some name.text)) .done
    exact ihMore.step h hahead hinside hscope hround (show Clean _ (item.record body.scope o) _ from hread)
  | type frame members more ih =>
    intro s ahead o namespaceName body hinside hscope hahead h
    rw [tokens, List.append_assoc] at h
    have hread := frame.typeOrStatement h (more.follows hahead) hscope
    have hless : (more.tokens ++ ahead).length < (frame.tokens members.tokens ++ (more.tokens ++ ahead)).length := by
      simp [TypeFrame.tokens]
      omega
    have hround : namespaceRound NamespaceBody.read body s = .again (typeOrStatement body.scope s) := by
      rw [← h.progress _ hread hless]
      simp only [frame.tokens_eq, List.append_assoc] at h
      exact frame.namespaceRound _ body h
    rw [contents, frame.record_contents]
    exact ih.step h hahead hinside hscope hround hread

end Items

end CoreGrammar

/-- A core program is read without a defect, and its outline is that of its tree. -/
theorem CompilationUnit.ofTokens_core (unit : Items) :
    ofTokens unit.tokens = ⟨Outline.ofContents (unit.contents none), []⟩ := by
  have hstart : (Reading.ofTokens unit.tokens).Clean (unit.tokens ++ []) .empty :=
    ⟨(List.append_nil _).symm, rfl, rfl, rfl⟩
  obtain ⟨v, hv, -, hread⟩ := unit.reads NamespaceBody.file rfl rfl (fun t ht => by cases ht) hstart
  have hend : namespaceRound NamespaceBody.read NamespaceBody.file v = .done v := by
    rw [namespaceRound, show v.peek? = none from congrArg List.head? hv.ahead]
    rfl
  rw [ofTokens, hread, NamespaceBody.read_eq hv.moving, rounds_of_done hend, hv.outline, hv.errors]
  exact congrArg (CompilationUnit.mk · []) (Contents.record_empty (unit.contents none))

end CSharpStyle
