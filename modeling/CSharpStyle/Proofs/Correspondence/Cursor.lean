import CSharpStyle.Grammar.Member
import Mathlib.Data.List.Forall2

/-!
# Cursors in lockstep

What a reader decides on a cursor depends on the kinds and texts of the tokens ahead, and on nothing else. So two
cursors that see alike tokens are moved alike by every reader of types, names, headers and patterns.

* `Cursor.Lockstep tokens K`: the relation `K` between cursors is kept when both move over one token. A `;` or a brace
  is a wall: what is behind it may differ, so these readers have to stop in front of it, and all of them do.
* `Lockstep.type?`, `Lockstep.read`, `Lockstep.localDeclaration?`, …: a reader takes related cursors to related ones.
-/

namespace CSharpStyle

/-- The tokens differ at most in their places. -/
structure Token.Alike (t u : Token) : Prop where
  kind : t.kind = u.kind
  text : t.text = u.text

namespace Token

theorem Alike.rfl {t : Token} : t.Alike t := ⟨Eq.refl _, Eq.refl _⟩

theorem Alike.isPunctuation {t u : Token} (h : t.Alike u) (mark : String) :
    t.isPunctuation mark = u.isPunctuation mark := by
  rw [Token.isPunctuation, Token.isPunctuation, h.kind, h.text]

theorem Alike.isKeyword {t u : Token} (h : t.Alike u) (word : String) : t.isKeyword word = u.isKeyword word := by
  rw [Token.isKeyword, Token.isKeyword, h.kind, h.text]

theorem Alike.isIdentifier {t u : Token} (h : t.Alike u) : t.isIdentifier = u.isIdentifier := by
  rw [Token.isIdentifier, Token.isIdentifier, h.kind]

theorem Alike.isName {t u : Token} (h : t.Alike u) : t.isName = u.isName := by
  rw [Token.isName, Token.isName, h.isIdentifier, h.kind, h.text]

theorem Alike.isBuiltInType {t u : Token} (h : t.Alike u) : t.isBuiltInType = u.isBuiltInType := by
  rw [Token.isBuiltInType, Token.isBuiltInType, h.kind, h.text]

theorem Alike.isOpener {t u : Token} (h : t.Alike u) : t.isOpener = u.isOpener := by
  rw [Token.isOpener, Token.isOpener, h.kind, h.text]

theorem Alike.isCloser {t u : Token} (h : t.Alike u) : t.isCloser = u.isCloser := by
  rw [Token.isCloser, Token.isCloser, h.kind, h.text]

theorem Alike.identifierName {t u : Token} (h : t.Alike u) : t.identifierName = u.identifierName := by
  rw [Token.identifierName, Token.identifierName, h.text]

theorem eq_of_isPunctuation {t : Token} {mark : String} (h : t.isPunctuation mark) :
    t.kind = .punctuation ∧ t.text = mark := by
  simpa [Token.isPunctuation] using h

/-- A token is at most one mark. -/
theorem isPunctuation_of_ne {t : Token} {mark other : String} (h : t.isPunctuation mark) (hne : mark ≠ other) :
    t.isPunctuation other = false := by
  obtain ⟨-, htext⟩ := eq_of_isPunctuation h
  rw [Token.isPunctuation, htext, beq_eq_false_iff_ne.mpr hne, Bool.and_false]

theorem not_isPunctuation_of_kind {t : Token} (h : t.kind ≠ .punctuation) (mark : String) :
    t.isPunctuation mark = false := by
  rw [Token.isPunctuation, beq_eq_false_iff_ne.mpr h, Bool.false_and]

theorem not_isPunctuation_of_isKeyword {t : Token} {word : String} (h : t.isKeyword word) (mark : String) :
    t.isPunctuation mark = false := by
  refine not_isPunctuation_of_kind (fun hkind => ?_) mark
  simp [Token.isKeyword, hkind] at h

theorem not_isPunctuation_of_isName {t : Token} (h : t.isName) (mark : String) : t.isPunctuation mark = false := by
  refine not_isPunctuation_of_kind (fun hkind => ?_) mark
  simp [Token.isName, Token.isIdentifier, hkind] at h

theorem Alike.isTypeArgumentToken {t u : Token} (h : t.Alike u) :
    Cursor.isTypeArgumentToken t = Cursor.isTypeArgumentToken u := by
  rw [Cursor.isTypeArgumentToken, Cursor.isTypeArgumentToken, h.kind, h.text]

/-- A token that no reader of types, names or headers consumes, except inside brackets that it skips. -/
def isWall (t : Token) : Bool := t.isPunctuation ";" || t.isPunctuation "\x7b" || t.isPunctuation "\x7d"

theorem eq_of_isWall {t : Token} (h : t.isWall) :
    t.kind = .punctuation ∧ (t.text = ";" ∨ t.text = "\x7b" ∨ t.text = "\x7d") := by
  simp only [isWall, isPunctuation, ← Bool.and_or_distrib_left, Bool.and_eq_true, Bool.or_eq_true, beq_iff_eq,
    or_assoc] at h
  exact h

theorem not_isPunctuation_of_not_isWall {t : Token} (h : t.isWall = false) : t.isPunctuation ";" = false := by
  rw [isWall, Bool.or_eq_false_iff, Bool.or_eq_false_iff] at h
  exact h.1.1

theorem not_isWall_of_isPunctuation {t : Token} {mark : String} (h : t.isPunctuation mark)
    (hmark : mark ∉ [";", "\x7b", "\x7d"]) : t.isWall = false := by
  simp only [List.mem_cons, List.not_mem_nil, or_false, not_or] at hmark
  rw [isWall, isPunctuation_of_ne h hmark.1, isPunctuation_of_ne h hmark.2.1, isPunctuation_of_ne h hmark.2.2]
  rfl

theorem not_isWall_of_kind {t : Token} (h : t.kind ≠ .punctuation) : t.isWall = false := by
  rw [isWall, not_isPunctuation_of_kind h, not_isPunctuation_of_kind h, not_isPunctuation_of_kind h]
  rfl

theorem not_isWall_of_isKeyword {t : Token} {word : String} (h : t.isKeyword word) : t.isWall = false := by
  refine not_isWall_of_kind fun hkind => ?_
  simp [isKeyword, hkind] at h

theorem not_isWall_of_isName {t : Token} (h : t.isName) : t.isWall = false := by
  refine not_isWall_of_kind fun hkind => ?_
  simp [isName, isIdentifier, hkind] at h

theorem not_isWall_of_isBuiltInType {t : Token} (h : t.isBuiltInType) : t.isWall = false := by
  refine not_isWall_of_kind fun hkind => ?_
  simp [isBuiltInType, hkind] at h

theorem not_isWall_of_isTypeArgumentToken {t : Token} (h : Cursor.isTypeArgumentToken t) : t.isWall = false := by
  cases hkind : t.kind with
  | punctuation =>
    rw [Cursor.isTypeArgumentToken, hkind] at h
    have hmark : t.isPunctuation t.text = true := by simp [isPunctuation, hkind]
    refine not_isWall_of_isPunctuation hmark fun hwall => ?_
    simp only [List.mem_cons, List.not_mem_nil, or_false] at hwall
    rcases hwall with htext | htext | htext <;> simp [htext] at h
  | _ => exact not_isWall_of_kind (by simp [hkind])

end Token

/-- Two attempts that fail together or succeed with related results. -/
theorem rel_cases {α β : Type} {r : α → β → Prop} {o : Option α} {p : Option β} (h : Option.Rel r o p) :
    (o = none ∧ p = none) ∨ ∃ a b, o = some a ∧ p = some b ∧ r a b := by
  cases h with
  | none => exact .inl ⟨rfl, rfl⟩
  | some hab => exact .inr ⟨_, _, rfl, rfl, hab⟩

/-- The names were read from related tokens. -/
structure Declarator.Alike (tokens : Token → Token → Prop) (d e : Declarator) : Prop where
  token : tokens d.token e.token
  usesVar : d.usesVar = e.usesVar

/-- Patterns were read alike. -/
def Declarator.NamesAlike (tokens : Token → Token → Prop) (K : Cursor → Cursor → Prop) (p q : Declarator.Names) :
    Prop :=
  Option.Rel (List.Forall₂ (Declarator.Alike tokens)) p.1 q.1 ∧ K p.2 q.2

inductive LocalBeginning.Alike (tokens : Token → Token → Prop) : LocalBeginning → LocalBeginning → Prop
  | pattern {names names' : List Declarator} (h : List.Forall₂ (Declarator.Alike tokens) names names') :
    Alike tokens (.pattern names) (.pattern names')
  | type (isVar : Bool) : Alike tokens (.type isVar) (.type isVar)

namespace Cursor

theorem exists_of_sees {c : Cursor} {mark : String} (h : c.sees mark) :
    ∃ t, c.peek? = some t ∧ t.isPunctuation mark :=
  (Option.any_eq_true _ _).mp h

theorem sees_of_peek? {c : Cursor} {t : Token} (h : c.peek? = some t) (mark : String) :
    c.sees mark = t.isPunctuation mark := by
  rw [sees, h, Option.any_some]

/-- A token is at most one mark. -/
theorem sees_of_ne {c : Cursor} {mark other : String} (h : c.sees mark) (hne : mark ≠ other) :
    c.sees other = false := by
  obtain ⟨t, ht, hmark⟩ := exists_of_sees h
  rw [sees_of_peek? ht, Token.isPunctuation_of_ne hmark hne]

theorem skipWhile_eq (p : Token → Bool) (c : Cursor) :
    c.skipWhile p = if c.peek?.any p then c.next.skipWhile p else c := by
  obtain ⟨before, _ | ⟨t, ahead⟩⟩ := c
  · rfl
  · cases hp : p t <;> simp [skipWhile, next, peek?, hp]

/-- The relation `K` between cursors is kept while both move over the same tokens, up to a wall. -/
structure Lockstep (tokens : Token → Token → Prop) (K : Cursor → Cursor → Prop) : Prop where
  alike {t u : Token} : tokens t u → t.Alike u
  peek? {c d : Cursor} : K c d → Option.Rel tokens c.peek? d.peek?
  second? {c d : Cursor} : K c d → c.sees ";" = false → Option.Rel Token.Alike c.second? d.second?
  next {c d : Cursor} {t : Token} : K c d → c.peek? = some t → t.isWall = false → K c.next d.next
  skipGroup {c d : Cursor} : K c d → c.peek?.any (·.isOpener) → K c.skipGroup d.skipGroup
  attributeSection {c d : Cursor} : K c d → c.sees "[" →
    c.attributeSection.1 = d.attributeSection.1 ∧ K c.attributeSection.2 d.attributeSection.2
  skipRank {c d : Cursor} : K c d → c.sees "[" → (c.seesSecond "]" || c.seesSecond ",") →
    K (c.skipPast "]") (d.skipPast "]")

namespace Lockstep

variable {tokens : Token → Token → Prop} {K : Cursor → Cursor → Prop} {c d : Cursor}

theorem peek_cases (hK : Lockstep tokens K) (h : K c d) :
    (c.peek? = none ∧ d.peek? = none) ∨ ∃ t u, c.peek? = some t ∧ d.peek? = some u ∧ tokens t u :=
  rel_cases (hK.peek? h)

/-- A question about the kind and text of the next token has one answer. -/
theorem peek_any (hK : Lockstep tokens K) (h : K c d) {p q : Token → Bool}
    (hp : ∀ {t u : Token}, t.Alike u → p t = q u) : c.peek?.any p = d.peek?.any q := by
  rcases hK.peek_cases h with ⟨hc, hd⟩ | ⟨t, u, hc, hd, htu⟩
  · rw [hc, hd]; rfl
  · rw [hc, hd, Option.any_some, Option.any_some, hp (hK.alike htu)]

theorem sees (hK : Lockstep tokens K) (h : K c d) (mark : String) : c.sees mark = d.sees mark :=
  hK.peek_any h fun htu => htu.isPunctuation mark

theorem seesKeyword (hK : Lockstep tokens K) (h : K c d) (word : String) :
    c.seesKeyword word = d.seesKeyword word :=
  hK.peek_any h fun htu => htu.isKeyword word

theorem seesName (hK : Lockstep tokens K) (h : K c d) : c.seesName = d.seesName :=
  hK.peek_any h fun htu => htu.isName

theorem second_any (hK : Lockstep tokens K) (h : K c d) (hsemi : c.sees ";" = false) {p q : Token → Bool}
    (hp : ∀ {t u : Token}, t.Alike u → p t = q u) : c.second?.any p = d.second?.any q := by
  rcases rel_cases (hK.second? h hsemi) with ⟨hc, hd⟩ | ⟨t, u, hc, hd, htu⟩
  · rw [hc, hd]; rfl
  · rw [hc, hd, Option.any_some, Option.any_some, hp htu]

theorem seesSecond (hK : Lockstep tokens K) (h : K c d) (hsemi : c.sees ";" = false) (mark : String) :
    c.seesSecond mark = d.seesSecond mark :=
  hK.second_any h hsemi fun htu => htu.isPunctuation mark

theorem eat? (hK : Lockstep tokens K) (h : K c d) (mark : String) (hmark : mark ∉ [";", "\x7b", "\x7d"]) :
    Option.Rel K (c.eat? mark) (d.eat? mark) := by
  rw [Cursor.eat?, Cursor.eat?, ← hK.sees h mark]
  split
  · rename_i hsees
    obtain ⟨t, ht, htmark⟩ := exists_of_sees hsees
    exact .some (hK.next h ht (Token.not_isWall_of_isPunctuation htmark hmark))
  · exact .none

theorem eatKeyword? (hK : Lockstep tokens K) (h : K c d) (word : String) :
    Option.Rel K (c.eatKeyword? word) (d.eatKeyword? word) := by
  rw [Cursor.eatKeyword?, Cursor.eatKeyword?, ← hK.seesKeyword h word]
  split
  · rename_i hsees
    obtain ⟨t, ht, htword⟩ := (Option.any_eq_true _ _).mp hsees
    exact .some (hK.next h ht (Token.not_isWall_of_isKeyword htword))
  · exact .none

theorem skipKeyword (hK : Lockstep tokens K) (h : K c d) (word : String) :
    K (c.skipKeyword word) (d.skipKeyword word) := by
  rw [Cursor.skipKeyword, Cursor.skipKeyword]
  rcases rel_cases (hK.eatKeyword? h word) with ⟨hc, hd⟩ | ⟨c', d', hc, hd, h'⟩
  · rw [hc, hd]; exact h
  · rw [hc, hd]; exact h'

theorem skipEither (hK : Lockstep tokens K) (h : K c d) (word other : String) :
    K (c.skipEither word other) (d.skipEither word other) := by
  rw [Cursor.skipEither, Cursor.skipEither]
  rcases rel_cases (hK.eatKeyword? h word) with ⟨hc, hd⟩ | ⟨c', d', hc, hd, h'⟩
  · rw [hc, hd]; exact hK.skipKeyword h other
  · rw [hc, hd]; exact h'

theorem name? (hK : Lockstep tokens K) (h : K c d) :
    Option.Rel (fun p q => tokens p.1 q.1 ∧ K p.2 q.2) c.name? d.name? := by
  rw [Cursor.name?, Cursor.name?]
  rcases hK.peek_cases h with ⟨hc, hd⟩ | ⟨t, u, hc, hd, htu⟩
  · rw [hc, hd]; exact .none
  · simp only [hc, hd, ← (hK.alike htu).isName]
    split
    · rename_i hname
      exact .some ⟨htu, hK.next h hc (Token.not_isWall_of_isName hname)⟩
    · exact .none

theorem skipName (hK : Lockstep tokens K) (h : K c d) : K c.skipName d.skipName := by
  rw [Cursor.skipName, Cursor.skipName, ← hK.seesName h]
  split
  · rename_i hsees
    obtain ⟨t, ht, hname⟩ := (Option.any_eq_true _ _).mp hsees
    exact hK.next h ht (Token.not_isWall_of_isName hname)
  · exact h

theorem skipMany {stride : Stride} (h : K c d)
    (hstep : ∀ {c d : Cursor}, K c d → Option.Rel K (stride.step? c) (stride.step? d)) :
    K (c.skipMany stride) (d.skipMany stride) := by
  fun_induction Cursor.skipMany stride c generalizing d with
  | case1 c c' hc ih =>
    rcases rel_cases (hstep h) with ⟨hnone, -⟩ | ⟨_, d', hsome, hd, h'⟩
    · rw [hc] at hnone; cases hnone
    · rw [hc] at hsome
      cases hsome
      rw [skipMany_of_some hd]
      exact ih h'
  | case2 c hc =>
    rcases rel_cases (hstep h) with ⟨-, hd⟩ | ⟨_, _, hsome, -, -⟩
    · rw [skipMany_of_none hd]; exact h
    · rw [hc] at hsome; cases hsome

/-- Tokens are skipped alike when moving over a skipped token keeps the relation. -/
theorem skipWhile (hK : Lockstep tokens K) (h : K c d) {p : Token → Bool}
    (hp : ∀ {t u : Token}, t.Alike u → p t = p u)
    (hnext : ∀ {c d : Cursor} {t : Token}, K c d → c.peek? = some t → p t → K c.next d.next) :
    K (c.skipWhile p) (d.skipWhile p) := by
  induction hn : c.size using Nat.strongRecOn generalizing c d with
  | ind n ih =>
    rw [skipWhile_eq p c, skipWhile_eq p d, ← hK.peek_any h hp]
    split
    · rename_i hany
      obtain ⟨t, ht, hpt⟩ := (Option.any_eq_true _ _).mp hany
      exact ih c.next.size (hn ▸ size_next_lt (ahead_ne_nil_of_peek? ht)) (hnext h ht hpt) rfl
    · exact h

/-- A reader that stops at walls moves alike to the next stop. -/
theorem skipUntil (hK : Lockstep tokens K) (h : K c d) {stop : Token → Bool}
    (hstop : ∀ {t u : Token}, t.Alike u → stop t = stop u)
    (hwall : ∀ {t : Token}, t.isWall → stop t) : K (c.skipUntil stop) (d.skipUntil stop) := by
  refine skipMany h fun {c d} h => ?_
  simp only [strideUntil]
  rcases hK.peek_cases h with ⟨hc, hd⟩ | ⟨t, u, hc, hd, htu⟩
  · rw [hc, hd]; exact .none
  · simp only [hc, hd, ← hstop (hK.alike htu), nextOrGroup, ← hK.sees h "("]
    split
    · exact .none
    · rename_i hgo
      have hwall : t.isWall = false := by
        cases hmark : t.isWall
        · rfl
        · exact absurd (hwall hmark) hgo
      split
      · rename_i hparen
        refine .some (hK.skipGroup h ?_)
        rw [sees_of_peek? hc] at hparen
        obtain ⟨hkind, htext⟩ := Token.eq_of_isPunctuation hparen
        simp [hc, Token.isOpener, hkind, htext]
      · exact .some (hK.next h hc hwall)

/-! ### Types -/

private theorem cons_cases (hK : Lockstep tokens K) {before ahead before' ahead' : List Token}
    (h : K ⟨before, ahead⟩ ⟨before', ahead'⟩) :
    (ahead = [] ∧ ahead' = []) ∨ ∃ t rest u rest', ahead = t :: rest ∧ ahead' = u :: rest' ∧ tokens t u ∧
      (t.isWall = false → K ⟨t :: before, rest⟩ ⟨u :: before', rest'⟩) := by
  have hpeek := hK.peek? h
  cases ahead with
  | nil =>
    cases ahead' with
    | nil => exact .inl ⟨rfl, rfl⟩
    | cons u rest' => cases hpeek
  | cons t rest =>
    cases ahead' with
    | nil => cases hpeek
    | cons u rest' =>
      cases hpeek with
      | some htu => exact .inr ⟨t, rest, u, rest', rfl, rfl, htu, hK.next h rfl⟩

theorem closeTypeArguments (hK : Lockstep tokens K) {before ahead before' ahead' : List Token} {depth : Nat}
    (h : K ⟨before, ahead⟩ ⟨before', ahead'⟩) :
    Option.Rel K (Cursor.closeTypeArguments depth before ahead)
      (Cursor.closeTypeArguments depth before' ahead') := by
  induction ahead generalizing depth before before' ahead' with
  | nil =>
    rcases hK.cons_cases h with ⟨-, rfl⟩ | ⟨_, _, _, _, hnil, -⟩
    · exact .none
    · cases hnil
  | cons t ahead ih =>
    rcases hK.cons_cases h with ⟨hcons, -⟩ | ⟨_, _, u, rest', heq, rfl, htu, hnext⟩
    · cases hcons
    · cases heq
      have halike := hK.alike htu
      simp only [Cursor.closeTypeArguments, ← halike.isPunctuation, ← halike.isTypeArgumentToken]
      split
      · rename_i hopen
        exact ih (hnext (Token.not_isWall_of_isPunctuation hopen (by decide)))
      · split
        · rename_i hclose
          have h' := hnext (Token.not_isWall_of_isPunctuation hclose (by decide))
          split
          · exact .some h'
          · exact ih h'
        · split
          · rename_i hargument
            exact ih (hnext (Token.not_isWall_of_isTypeArgumentToken hargument))
          · exact .none

theorem typeArguments? (hK : Lockstep tokens K) (h : K c d) :
    Option.Rel K c.typeArguments? d.typeArguments? := by
  rw [Cursor.typeArguments?, Cursor.typeArguments?]
  rcases rel_cases (hK.eat? h "<" (by decide)) with ⟨hc, hd⟩ | ⟨c', d', hc, hd, h'⟩
  · rw [hc, hd]; exact .none
  · rw [hc, hd]; exact hK.closeTypeArguments h'

theorem skipTypeArguments (hK : Lockstep tokens K) (h : K c d) : K c.skipTypeArguments d.skipTypeArguments := by
  rw [Cursor.skipTypeArguments, Cursor.skipTypeArguments]
  rcases rel_cases (hK.typeArguments? h) with ⟨hc, hd⟩ | ⟨c', d', hc, hd, h'⟩
  · rw [hc, hd]; exact h
  · rw [hc, hd]; exact h'

theorem seesQualifier (hK : Lockstep tokens K) (h : K c d) : c.seesQualifier = d.seesQualifier := by
  rw [Cursor.seesQualifier, Cursor.seesQualifier, ← hK.sees h, ← hK.sees h]
  cases hmark : c.sees "." || c.sees "::" with
  | false => rfl
  | true =>
    have hsemi : c.sees ";" = false := by
      rcases Bool.or_eq_true_iff.mp hmark with hmark | hmark <;> exact sees_of_ne hmark (by decide)
    rw [hK.second_any h hsemi fun htu => htu.isName]

/-- Behind a qualifier mark a name is consumed with the mark. -/
theorem next_next (hK : Lockstep tokens K) (h : K c d) {t : Token} (ht : c.peek? = some t)
    (hwall : t.isWall = false) (hsecond : c.second?.any (·.isName)) : K c.next.next d.next.next := by
  obtain ⟨u, hu, hname⟩ := (Option.any_eq_true _ _).mp hsecond
  exact hK.next (hK.next h ht hwall) hu (Token.not_isWall_of_isName hname)

theorem next_next_of_seesQualifier (hK : Lockstep tokens K) (h : K c d) (hsees : c.seesQualifier) :
    K c.next.next d.next.next := by
  obtain ⟨hmark, hsecond⟩ := Bool.and_eq_true_iff.mp hsees
  rcases Bool.or_eq_true_iff.mp hmark with hmark | hmark <;> obtain ⟨t, ht, htmark⟩ := exists_of_sees hmark <;>
    exact hK.next_next h ht (Token.not_isWall_of_isPunctuation htmark (by decide)) hsecond

theorem qualifiedNameRest (hK : Lockstep tokens K) (h : K c d) : K c.qualifiedNameRest d.qualifiedNameRest := by
  fun_induction Cursor.qualifiedNameRest c generalizing d with
  | case1 =>
    rename_i c named hqualifier ih
    have hnamed : K named d.skipTypeArguments := hK.skipTypeArguments h
    rw [Cursor.qualifiedNameRest.eq_def d, if_pos (by rw [← hK.seesQualifier hnamed, hqualifier])]
    exact ih (hK.next_next_of_seesQualifier hnamed hqualifier)
  | case2 =>
    rename_i c named hqualifier
    have hnamed : K named d.skipTypeArguments := hK.skipTypeArguments h
    rw [Cursor.qualifiedNameRest.eq_def d, if_neg (by rwa [← hK.seesQualifier hnamed])]
    exact hnamed

theorem typeSuffix? (hK : Lockstep tokens K) (h : K c d) : Option.Rel K c.typeSuffix? d.typeSuffix? := by
  rw [Cursor.typeSuffix?, Cursor.typeSuffix?, ← hK.sees h, ← hK.sees h, ← hK.sees h]
  split
  · rename_i hmark
    refine .some ?_
    rcases Bool.or_eq_true_iff.mp hmark with hmark | hmark <;> obtain ⟨t, ht, htmark⟩ := exists_of_sees hmark <;>
      exact hK.next h ht (Token.not_isWall_of_isPunctuation htmark (by decide))
  · cases hrank : c.sees "[" with
    | false => exact .none
    | true =>
      have hsemi : c.sees ";" = false := sees_of_ne hrank (by decide)
      rw [Bool.true_and, Bool.true_and, ← hK.seesSecond h hsemi, ← hK.seesSecond h hsemi]
      split
      · exact .some (hK.skipRank h hrank ‹_›)
      · exact .none

theorem skipSuffixes (hK : Lockstep tokens K) (h : K c d) : K c.skipSuffixes d.skipSuffixes :=
  skipMany h fun h => hK.typeSuffix? h

private theorem typeInside_and_closeTuples (hK : Lockstep tokens K) (n : Nat) :
    (∀ {depth : Nat} {c d : Cursor}, c.size < n → K c d →
      Option.Rel K (Cursor.typeInside depth c) (Cursor.typeInside depth d)) ∧
    ∀ {depth : Nat} {c d : Cursor}, c.size < n → K c d →
      Option.Rel K (Cursor.closeTuples depth c) (Cursor.closeTuples depth d) := by
  induction n with
  | zero => exact ⟨fun h => absurd h (Nat.not_lt_zero _), fun h => absurd h (Nat.not_lt_zero _)⟩
  | succ n ih =>
    obtain ⟨hinside, hclose⟩ := ih
    refine ⟨fun {depth c d} hn h => ?_, fun {depth c d} hn h => ?_⟩
    · rw [typeInside_eq depth c, typeInside_eq depth d]
      rcases hK.peek_cases h with ⟨hc, hd⟩ | ⟨t, u, hc, hd, htu⟩
      · rw [hc, hd]; exact .none
      · have halike := hK.alike htu
        have hnext := size_next_lt (ahead_ne_nil_of_peek? hc)
        simp only [hc, hd, ← halike.isPunctuation, ← halike.isName, ← halike.isBuiltInType]
        split
        · rename_i hparen
          exact hinside (by omega) (hK.next h hc (Token.not_isWall_of_isPunctuation hparen (by decide)))
        · split
          · rename_i hname
            have hwall : t.isWall = false := by
              rcases Bool.or_eq_true_iff.mp hname with hname | hname
              · exact Token.not_isWall_of_isName hname
              · exact Token.not_isWall_of_isBuiltInType hname
            have hrest := size_qualifiedNameRest_le c.next
            have hsuffixes : c.next.qualifiedNameRest.skipSuffixes.size ≤ c.next.qualifiedNameRest.size :=
              size_skipMany_le _ _
            exact hclose (by omega) (hK.skipSuffixes (hK.qualifiedNameRest (hK.next h hc hwall)))
          · exact .none
    · cases depth with
      | zero =>
        rw [closeTuples_zero, closeTuples_zero]
        exact .some h
      | succ outer =>
        have hskip := size_skipName_le c
        rw [closeTuples_succ outer c, closeTuples_succ outer d]
        rcases rel_cases (hK.eat? (hK.skipName h) "," (by decide)) with
          ⟨hc, hd⟩ | ⟨c', d', hc, hd, h'⟩
        · rw [hc, hd]
          rcases rel_cases (hK.eat? (hK.skipName h) ")" (by decide)) with
            ⟨hc, hd⟩ | ⟨c', d', hc, hd, h'⟩
          · rw [hc, hd]; exact .none
          · have hlt := size_of_eat? hc
            have hsuffixes : c'.skipSuffixes.size ≤ c'.size := size_skipMany_le _ _
            rw [hc, hd]
            exact hclose (by omega) (hK.skipSuffixes h')
        · have hlt := size_of_eat? hc
          rw [hc, hd]
          exact hinside (by omega) h'

theorem typeInside (hK : Lockstep tokens K) (h : K c d) (depth : Nat) :
    Option.Rel K (Cursor.typeInside depth c) (Cursor.typeInside depth d) :=
  (hK.typeInside_and_closeTuples (c.size + 1)).1 (Nat.lt_succ_self _) h

theorem type? (hK : Lockstep tokens K) (h : K c d) :
    Option.Rel (fun p q => p.1 = q.1 ∧ K p.2 q.2) c.type? d.type? := by
  have hvar : (c.peek?.any (·.text == "var") && c.next.typeArguments?.isNone && !c.next.seesQualifier) =
      (d.peek?.any (·.text == "var") && d.next.typeArguments?.isNone && !d.next.seesQualifier) := by
    rcases hK.peek_cases h with ⟨hc, hd⟩ | ⟨t, u, hc, hd, htu⟩
    · rw [hc, hd]; rfl
    · rw [hc, hd, Option.any_some, Option.any_some, ← (hK.alike htu).text]
      cases hword : t.text == "var" with
      | false => rfl
      | true =>
        have hwall : t.isWall = false := by
          simp [Token.isWall, Token.isPunctuation, beq_iff_eq.mp hword]
        have hnext := hK.next h hc hwall
        rw [← hK.seesQualifier hnext]
        rcases rel_cases (hK.typeArguments? hnext) with ⟨hc', hd'⟩ | ⟨_, _, hc', hd', -⟩
        · rw [hc', hd']
        · rw [hc', hd']; rfl
  rw [Cursor.type?, Cursor.type?]
  rcases rel_cases (hK.typeInside h 0) with ⟨hc, hd⟩ | ⟨c', d', hc, hd, h'⟩
  · rw [hc, hd]; exact .none
  · rw [hc, hd]
    exact .some ⟨hvar, h'⟩

/-! ### Headers and member names -/

theorem skipAttributes (hK : Lockstep tokens K) (h : K c d) : K c.skipAttributes d.skipAttributes := by
  refine skipMany h fun {c d} h => ?_
  simp only [attributeStride, ← hK.sees h "["]
  split
  · rename_i hbracket
    exact .some (hK.attributeSection h hbracket).2
  · exact .none

theorem step? (hK : Lockstep tokens K) (h : K c d) (header : Header) :
    Option.Rel (fun p q => p.1 = q.1 ∧ K p.2 q.2) (Header.step? header c) (Header.step? header d) := by
  rw [Header.step?, Header.step?]
  rcases hK.peek_cases h with ⟨hc, hd⟩ | ⟨t, u, hc, hd, htu⟩
  · rw [hc, hd]; exact .none
  have halike := hK.alike htu
  simp only [hc, hd, ← halike.isPunctuation, ← halike.isKeyword, ← halike.kind, ← halike.text,
    ← halike.isIdentifier]
  by_cases hbracket : t.isPunctuation "["
  · obtain ⟨hfound, h'⟩ := hK.attributeSection h (by rw [sees_of_peek? hc, hbracket])
    simp only [hbracket, ↓reduceIte, hfound]
    exact .some ⟨rfl, h'⟩
  simp only [hbracket, ↓reduceIte, Bool.false_eq_true]
  by_cases hkind : t.kind = .punctuation
  · simp only [Token.isKeyword, Token.isIdentifier, hkind, reduceCtorEq, ↓reduceIte, Bool.false_and,
      show (TokenKind.punctuation == TokenKind.keyword) = false from rfl,
      show (TokenKind.punctuation == TokenKind.identifier) = false from rfl, Bool.false_eq_true]
    exact .none
  · have hsemi := Token.not_isPunctuation_of_kind hkind ";"
    have hnext := hK.next h hc (Token.not_isWall_of_kind hkind)
    have hwall : c.sees ";" = false := by rw [sees_of_peek? hc, hsemi]
    have href : (c.second?.any fun t => t.isKeyword "struct" || t.isKeyword "partial" || t.isKeyword "readonly") =
        d.second?.any fun t => t.isKeyword "struct" || t.isKeyword "partial" || t.isKeyword "readonly" :=
      hK.second_any h hwall fun htu => by simp only [htu.isKeyword]
    have hfile : (c.second?.any fun t => t.kind == .keyword) = d.second?.any fun t => t.kind == .keyword :=
      hK.second_any h hwall fun htu => by rw [htu.kind]
    simp only [← hK.seesSecond h hwall, href, hfile]
    repeat' split
    all_goals first | exact .none | exact .some ⟨rfl, hnext⟩

theorem readOn (hK : Lockstep tokens K) (h : K c d) (header : Header) :
    (Header.readOn header c).1 = (Header.readOn header d).1 ∧
      K (Header.readOn header c).2 (Header.readOn header d).2 := by
  induction hn : c.size using Nat.strongRecOn generalizing c d header with
  | ind n ih =>
    rw [Header.readOn_eq header c, Header.readOn_eq header d]
    rcases rel_cases (hK.step? h header) with ⟨hc, hd⟩ | ⟨⟨after, c'⟩, ⟨after', d'⟩, hc, hd, heq, h'⟩
    · rw [hc, hd]; exact ⟨rfl, h⟩
    · cases heq
      rw [hc, hd]
      exact ih c'.size (hn ▸ Header.step?_consumes hc) h' after rfl

theorem read (hK : Lockstep tokens K) (h : K c d) :
    (Header.read c).1 = (Header.read d).1 ∧ K (Header.read c).2 (Header.read d).2 :=
  hK.readOn h {}

theorem seesTypeDeclaration (hK : Lockstep tokens K) (h : K c d) :
    c.seesTypeDeclaration = d.seesTypeDeclaration := by
  rw [Cursor.seesTypeDeclaration, Cursor.seesTypeDeclaration]
  rcases hK.peek_cases h with ⟨hc, hd⟩ | ⟨t, u, hc, hd, htu⟩
  · rw [hc, hd]
  simp only [hc, hd, ← (hK.alike htu).kind, ← (hK.alike htu).text]
  by_cases hkind : t.kind = .keyword
  · have hsemi : t.isPunctuation ";" = false := Token.not_isPunctuation_of_kind (by rw [hkind]; decide) _
    rw [hK.second_any h (by rw [sees_of_peek? hc, hsemi]) fun htu => by rw [htu.isName, htu.isKeyword, htu.isKeyword]]
  · rw [beq_eq_false_iff_ne.mpr hkind]
    rfl

theorem qualifiedMember (hK : Lockstep tokens K) (h : K c d) {name name' : Token} (hname : tokens name name')
    (isExplicit : Bool) :
    tokens (Cursor.qualifiedMember name isExplicit c).1.1 (Cursor.qualifiedMember name' isExplicit d).1.1 ∧
      (Cursor.qualifiedMember name isExplicit c).1.2 = (Cursor.qualifiedMember name' isExplicit d).1.2 ∧
      K (Cursor.qualifiedMember name isExplicit c).2 (Cursor.qualifiedMember name' isExplicit d).2 := by
  induction hn : c.size using Nat.strongRecOn generalizing c d name name' isExplicit with
  | ind n ih =>
    have hqualifier := hK.skipTypeArguments h
    rw [Cursor.qualifiedMember.eq_def name isExplicit c, Cursor.qualifiedMember.eq_def name' isExplicit d]
    simp only [← hK.sees hqualifier "."]
    split
    · rename_i hdot
      obtain ⟨t, ht, htdot⟩ := exists_of_sees hdot
      have hnext := hK.next hqualifier ht (Token.not_isWall_of_isPunctuation htdot (by decide))
      rcases hK.peek_cases hnext with ⟨hc, hd⟩ | ⟨t, u, hc, hd, htu⟩
      · rw [hc, hd]; exact ⟨hname, rfl, h⟩
      · simp only [hc, hd, ← (hK.alike htu).isName, ← (hK.alike htu).isKeyword]
        split
        · rename_i hsegment
          exact ih _ (hn ▸ size_next_next_lt_of_sees hdot)
            (hK.next hnext hc (Token.not_isWall_of_isName hsegment)) htu true rfl
        · split
          · exact ⟨hname, rfl, hnext⟩
          · exact ⟨hname, rfl, h⟩
    · exact ⟨hname, rfl, h⟩

/-! ### Patterns and local declarations -/

theorem ofName (hK : Lockstep tokens K) {t u : Token} (htu : tokens t u) (usesVar : Bool) :
    List.Forall₂ (Declarator.Alike tokens) (Declarator.ofName t usesVar) (Declarator.ofName u usesVar) := by
  rw [Declarator.ofName, Declarator.ofName, ← (hK.alike htu).text]
  split
  · exact .nil
  · exact .cons ⟨htu, rfl⟩ .nil

theorem element (hK : Lockstep tokens K) (h : K c d) (usesVar : Bool) :
    Declarator.NamesAlike tokens K (Declarator.element usesVar c) (Declarator.element usesVar d) := by
  rw [Declarator.element, Declarator.element]
  split
  · rcases rel_cases (hK.name? h) with ⟨hc, hd⟩ | ⟨⟨t, c'⟩, ⟨u, d'⟩, hc, hd, htu, h'⟩
    · rw [hc, hd]; exact ⟨.none, h⟩
    · rw [hc, hd]; exact ⟨.some (hK.ofName htu true), h'⟩
  · rcases rel_cases (hK.type? h) with ⟨hc, hd⟩ | ⟨⟨isVar, c'⟩, ⟨isVar', d'⟩, hc, hd, heq, h'⟩
    · rw [hc, hd]; exact ⟨.none, h⟩
    · cases heq
      simp only [hc, hd]
      rcases rel_cases (hK.name? h') with ⟨hc, hd⟩ | ⟨⟨t, c'⟩, ⟨u, d'⟩, hc, hd, htu, h''⟩
      · rw [hc, hd]; exact ⟨.none, h'⟩
      · rw [hc, hd]; exact ⟨.some (hK.ofName htu isVar), h''⟩

private theorem elements_and_closePatterns (hK : Lockstep tokens K) (usesVar : Bool) (n : Nat) :
    (∀ {outer : Nat} {names names' : List Declarator} {c d : Cursor}, c.size < n → K c d →
      List.Forall₂ (Declarator.Alike tokens) names names' →
      Declarator.NamesAlike tokens K (Declarator.elements usesVar outer names c)
        (Declarator.elements usesVar outer names' d)) ∧
    ∀ {outer : Nat} {names names' : List Declarator} {c d : Cursor}, c.size < n → K c d →
      List.Forall₂ (Declarator.Alike tokens) names names' →
      Declarator.NamesAlike tokens K (Declarator.closePatterns usesVar outer names c)
        (Declarator.closePatterns usesVar outer names' d) := by
  induction n with
  | zero => exact ⟨fun h => absurd h (Nat.not_lt_zero _), fun h => absurd h (Nat.not_lt_zero _)⟩
  | succ n ih =>
    obtain ⟨helements, hclose⟩ := ih
    refine ⟨fun {outer names names' c d} hn h hnames => ?_, fun {outer names names' c d} hn h hnames => ?_⟩
    · rw [Declarator.elements_eq usesVar outer names c, Declarator.elements_eq usesVar outer names' d]
      rcases rel_cases (hK.eat? h "(" (by decide)) with ⟨hc, hd⟩ | ⟨c', d', hc, hd, h'⟩
      · rw [hc, hd]
        have helement := hK.element h usesVar
        cases hc' : Declarator.element usesVar c with
        | mk found c' =>
          cases hd' : Declarator.element usesVar d with
          | mk found' d' =>
            rw [hc', hd'] at helement
            obtain ⟨hfound, h'⟩ := helement
            rcases rel_cases hfound with ⟨hnone, hnone'⟩ | ⟨more, more', hsome, hsome', hmore⟩
            · cases hnone; cases hnone'
              exact ⟨.none, h'⟩
            · cases hsome; cases hsome'
              have hlt := Declarator.size_element_lt hc'
              exact hclose (by omega) h' (List.rel_append hnames hmore)
      · have hlt := size_of_eat? hc
        rw [hc, hd]
        exact helements (by omega) h' hnames
    · rw [Declarator.closePatterns_eq usesVar outer names c, Declarator.closePatterns_eq usesVar outer names' d]
      rcases rel_cases (hK.eat? h "," (by decide)) with ⟨hc, hd⟩ | ⟨c', d', hc, hd, h'⟩
      · rw [hc, hd]
        rcases rel_cases (hK.eat? h ")" (by decide)) with ⟨hc, hd⟩ | ⟨c', d', hc, hd, h'⟩
        · rw [hc, hd]; exact ⟨.none, h⟩
        · have hlt := size_of_eat? hc
          rw [hc, hd]
          cases outer with
          | zero => exact ⟨.some hnames, h'⟩
          | succ outer => exact hclose (by omega) h' hnames
      · have hlt := size_of_eat? hc
        rw [hc, hd]
        exact helements (by omega) h' hnames

theorem pattern (hK : Lockstep tokens K) (h : K c d) (usesVar : Bool) :
    Declarator.NamesAlike tokens K (Declarator.pattern usesVar c) (Declarator.pattern usesVar d) := by
  rw [Declarator.pattern, Declarator.pattern]
  rcases rel_cases (hK.eat? h "(" (by decide)) with ⟨hc, hd⟩ | ⟨c', d', hc, hd, h'⟩
  · rw [hc, hd]; exact ⟨.none, h⟩
  · rw [hc, hd]
    exact (hK.elements_and_closePatterns usesVar (c'.size + 1)).1 (Nat.lt_succ_self _) h' .nil

theorem localFunctionName? (hK : Lockstep tokens K) (h : K c d) :
    Option.Rel (fun p q => tokens p.1 q.1 ∧ K p.2 q.2) c.localFunctionName? d.localFunctionName? := by
  have hmodifiers : K (c.skipWhile isFunctionModifier) (d.skipWhile isFunctionModifier) := by
    refine hK.skipWhile h (fun htu => by rw [isFunctionModifier, isFunctionModifier, htu.kind, htu.text]) ?_
    intro c d t h ht hmodifier
    refine hK.next h ht (Token.not_isWall_of_kind fun hkind => ?_)
    simp [isFunctionModifier, hkind] at hmodifier
  rw [Cursor.localFunctionName?, Cursor.localFunctionName?]
  rcases rel_cases (hK.type? hmodifiers) with ⟨hc, hd⟩ | ⟨⟨isVar, c'⟩, ⟨isVar', d'⟩, hc, hd, -, h'⟩
  · rw [hc, hd]; exact .none
  · simp only [hc, hd]
    rcases rel_cases (hK.name? h') with ⟨hc, hd⟩ | ⟨⟨t, c''⟩, ⟨u, d''⟩, hc, hd, htu, h''⟩
    · rw [hc, hd]; exact .none
    · have hgeneric : c''.typeArguments?.any (·.sees "(") = d''.typeArguments?.any (·.sees "(") := by
        rcases rel_cases (hK.typeArguments? h'') with ⟨hc, hd⟩ | ⟨_, _, hc, hd, hbehind⟩
        · rw [hc, hd]
        · rw [hc, hd]; exact hK.sees hbehind "("
      simp only [hc, hd, ← hK.sees h'' "(", ← hgeneric]
      split
      · exact .some ⟨htu, h''⟩
      · exact .none

theorem declaredType? (hK : Lockstep tokens K) (h : K c d) (context : LocalContext) :
    Option.Rel (fun p q => p.1.Alike tokens q.1 ∧ K p.2 q.2) (c.declaredType? context)
      (d.declaredType? context) := by
  rw [Cursor.declaredType?, Cursor.declaredType?]
  rcases rel_cases (hK.type? h) with ⟨hc, hd⟩ | ⟨⟨isVar, c'⟩, ⟨isVar', d'⟩, hc, hd, heq, h'⟩
  · rw [hc, hd]; exact .none
  · cases heq
    simp only [hc, hd, ← hK.seesName h']
    cases hname : c'.seesName with
    | false => exact .none
    | true =>
      obtain ⟨t, ht, htname⟩ := (Option.any_eq_true _ _).mp hname
      have hsemi : c'.sees ";" = false := by
        rw [sees_of_peek? ht, Token.not_isPunctuation_of_isName htname]
      simp only [← hK.seesSecond h' hsemi]
      split
      · exact .some ⟨.type isVar, h'⟩
      · exact .none

theorem deconstruction? (hK : Lockstep tokens K) (h : K c d) (usesVar : Bool) :
    Option.Rel (fun p q => p.1.Alike tokens q.1 ∧ K p.2 q.2) (c.deconstruction? usesVar)
      (d.deconstruction? usesVar) := by
  have hpattern := hK.pattern h usesVar
  rw [Cursor.deconstruction?, Cursor.deconstruction?]
  cases hc : Declarator.pattern usesVar c with
  | mk found c' =>
    cases hd : Declarator.pattern usesVar d with
    | mk found' d' =>
      rw [hc, hd] at hpattern
      obtain ⟨hfound, h'⟩ := hpattern
      rcases rel_cases hfound with ⟨rfl, rfl⟩ | ⟨names, names', rfl, rfl, hnames⟩
      · exact .none
      · rcases rel_cases (hK.eat? h' "=" (by decide)) with ⟨hc, hd⟩ | ⟨_, _, hc, hd, h''⟩
        · simp only [hc, hd]; exact .none
        · simp only [hc, hd]; exact .some ⟨.pattern hnames, h''⟩

theorem var_pattern (hK : Lockstep tokens K) (h : K c d) :
    (c.seesKeyword "var" && c.seesSecond "(") = (d.seesKeyword "var" && d.seesSecond "(") ∧
      ((c.seesKeyword "var" && c.seesSecond "(") → K c.next d.next) := by
  rw [← hK.seesKeyword h]
  cases hvar : c.seesKeyword "var" with
  | false => exact ⟨rfl, fun h => by simp at h⟩
  | true =>
    obtain ⟨t, ht, htvar⟩ := (Option.any_eq_true _ _).mp hvar
    have hsemi : t.isPunctuation ";" = false := Token.not_isPunctuation_of_isKeyword htvar _
    rw [← hK.seesSecond h (by rw [sees_of_peek? ht, hsemi])]
    exact ⟨rfl, fun _ => hK.next h ht (Token.not_isWall_of_isKeyword htvar)⟩

theorem localDeclaration? (hK : Lockstep tokens K) (h : K c d) (context : LocalContext) :
    Option.Rel (fun p q => p.1.Alike tokens q.1 ∧ K p.2 q.2) (c.localDeclaration? context)
      (d.localDeclaration? context) := by
  have hmodifiers : K (c.skipWhile isLocalModifier) (d.skipWhile isLocalModifier) := by
    refine hK.skipWhile h (fun htu => by
      rw [isLocalModifier, isLocalModifier, htu.isIdentifier, htu.text, htu.isKeyword, htu.isKeyword]) ?_
    intro c d t h ht hmodifier
    refine hK.next h ht (Token.not_isWall_of_kind fun hkind => ?_)
    simp [isLocalModifier, Token.isIdentifier, Token.isKeyword, hkind] at hmodifier
  obtain ⟨hvar, hnext⟩ := hK.var_pattern hmodifiers
  simp only [Cursor.localDeclaration?, ← hvar, ← hK.sees hmodifiers]
  split
  · exact hK.deconstruction? (hnext ‹_›) true
  · split
    · exact hK.deconstruction? hmodifiers false
    · exact hK.declaredType? hmodifiers context

theorem iterationVariables (hK : Lockstep tokens K) (h : K c d) :
    Declarator.NamesAlike tokens K (Reading.iterationVariables c) (Reading.iterationVariables d) := by
  have hmodifiers : K ((c.eatKeyword? "ref").elim c (·.skipKeyword "readonly"))
      ((d.eatKeyword? "ref").elim d (·.skipKeyword "readonly")) := by
    rcases rel_cases (hK.eatKeyword? h "ref") with ⟨hc, hd⟩ | ⟨_, _, hc, hd, h'⟩
    · rw [hc, hd]; exact h
    · rw [hc, hd]; exact hK.skipKeyword h' "readonly"
  obtain ⟨hvar, hnext⟩ := hK.var_pattern hmodifiers
  simp only [Reading.iterationVariables, ← hvar, ← hK.sees hmodifiers]
  split
  · exact hK.pattern (hnext ‹_›) true
  · split
    · exact hK.pattern hmodifiers false
    · rcases rel_cases (hK.type? hmodifiers) with ⟨hc, hd⟩ | ⟨⟨isVar, c'⟩, ⟨isVar', d'⟩, hc, hd, heq, h'⟩
      · rw [hc, hd]; exact ⟨.none, hmodifiers⟩
      · cases heq
        simp only [hc, hd]
        rcases rel_cases (hK.name? h') with ⟨hc, hd⟩ | ⟨⟨t, c''⟩, ⟨u, d''⟩, hc, hd, htu, h''⟩
        · rw [hc, hd]; exact ⟨.none, h'⟩
        · rw [hc, hd]; exact ⟨.some (.cons ⟨htu, rfl⟩ .nil), h''⟩

/-! ### A single cursor -/

private theorem rel_self {α : Type} {r : α → α → Prop} (hr : ∀ a, r a a) (o : Option α) : Option.Rel r o o := by
  cases o with
  | none => exact .none
  | some a => exact .some (hr a)

variable {I : Cursor → Prop}

/-- A cursor in lockstep with itself has the properties that are kept over single tokens and over brackets. -/
theorem ofInvariant
    (hnext : ∀ {c : Cursor} {t : Token}, I c → c.peek? = some t → t.isWall = false → I c.next)
    (hgroup : ∀ {c : Cursor}, I c → c.peek?.any (·.isOpener) → I c.skipGroup)
    (hsection : ∀ {c : Cursor}, I c → c.sees "[" → I c.attributeSection.2)
    (hrank : ∀ {c : Cursor}, I c → c.sees "[" → (c.seesSecond "]" || c.seesSecond ",") → I (c.skipPast "]")) :
    Lockstep Eq fun c d => c = d ∧ I c where
  alike h := h ▸ .rfl
  peek? h := h.1 ▸ rel_self (fun _ => rfl) _
  second? h _ := h.1 ▸ rel_self (fun _ => .rfl) _
  next h hpeek hwall := ⟨h.1 ▸ rfl, hnext h.2 hpeek hwall⟩
  skipGroup h hopen := ⟨h.1 ▸ rfl, hgroup h.2 hopen⟩
  attributeSection h hsees := ⟨h.1 ▸ rfl, h.1 ▸ rfl, hsection h.2 hsees⟩
  skipRank h hsees hsecond := ⟨h.1 ▸ rfl, hrank h.2 hsees hsecond⟩

variable (hI : Lockstep Eq fun c d => c = d ∧ I c)
include hI

theorem keeps_type? (h : I c) {isVar : Bool} (htype : c.type? = some (isVar, d)) : I d := by
  have hread := hI.type? ⟨rfl, h⟩
  rw [htype] at hread
  cases hread with
  | some hbehind => exact hbehind.2.2

theorem keeps_localFunctionName? (h : I c) {name : Token} (hname : c.localFunctionName? = some (name, d)) : I d := by
  have hread := hI.localFunctionName? ⟨rfl, h⟩
  rw [hname] at hread
  cases hread with
  | some hbehind => exact hbehind.2.2

theorem keeps_localDeclaration? (h : I c) {context : LocalContext} {beginning : LocalBeginning}
    (hbeginning : c.localDeclaration? context = some (beginning, d)) : I d := by
  have hread := hI.localDeclaration? ⟨rfl, h⟩ context
  rw [hbeginning] at hread
  cases hread with
  | some hbehind => exact hbehind.2.2

end Lockstep

end Cursor

end CSharpStyle
