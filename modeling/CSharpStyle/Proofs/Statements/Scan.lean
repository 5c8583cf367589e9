import CSharpStyle.Convention.StatementLayout
import CSharpStyle.Proofs.Grammar.Brackets

/-!
# The scan for statements that begin behind another one

The scan remembers the open brackets and the token that it has passed. Behind text whose brackets are closed the same
brackets are open as in front of it, so that what is found there depends on nothing around it.

* `crowded_cons`: one token.
* `crowded_append`: a beginning of the tokens, with the first token behind it.
* `IsEnclosed`: text whose brackets are closed, and that has no semicolon outside of them.
* `IsEnclosed.crowded_append`: what is found in such text, and where the scan goes on.
* `IsEnclosed.crowded_eq_nil`: without braces nothing is found in it.
-/

namespace CSharpStyle.OneStatementPerLine

open Token

/-- The brackets that are open behind a token. -/
def pendingBehind (pending : List String) (t : Token) : List String :=
  if t.isOpener then t.text :: pending else if t.isCloser then pending.tail else pending

/-- What is found behind a token, in front of `next`. -/
def crowdedBehind (pending : List String) (previous : Option Token) (t : Token) (next : Option Token) : List Token :=
  if t.isPunctuation ";" && endsStatement pending.head? previous && startsOnSameLine t next then next.toList else []

theorem crowdedBehind_eq_nil {t : Token} (h : t.isPunctuation ";" = false) (pending : List String)
    (previous next : Option Token) : crowdedBehind pending previous t next = [] := by
  rw [crowdedBehind, h]
  rfl

/-- A bracket is no semicolon. -/
theorem isPunctuation_semicolon_eq_false {t : Token} (h : t.isOpener ∨ t.isCloser) :
    t.isPunctuation ";" = false := by
  refine Bool.eq_false_iff.mpr fun hsemicolon => ?_
  obtain ⟨hkind, htext⟩ := eq_of_isPunctuation hsemicolon
  rw [isOpener, isCloser, hkind, htext] at h
  revert h
  decide

variable {pending : List String} {previous : Option Token} {t : Token} {rest : List Token}

theorem crowded_cons : crowded pending previous (t :: rest) =
    crowdedBehind pending previous t rest.head? ++ crowded (pendingBehind pending t) (some t) rest := by
  have hopener : (t.isPunctuation "(" || t.isPunctuation "[" || t.isPunctuation "\x7b") = t.isOpener := by
    simp only [isPunctuation, isOpener]
    cases t.kind == .punctuation <;> simp
  have hcloser : (t.isPunctuation ")" || t.isPunctuation "]" || t.isPunctuation "\x7d") = t.isCloser := by
    simp only [isPunctuation, isCloser]
    cases t.kind == .punctuation <;> simp
  rw [crowded, hopener, hcloser, pendingBehind]
  by_cases hopen : t.isOpener
  · rw [if_pos hopen, if_pos hopen, crowdedBehind_eq_nil (isPunctuation_semicolon_eq_false (.inl hopen))]
    rfl
  · by_cases hclose : t.isCloser
    · rw [if_neg hopen, if_neg hopen, if_pos hclose, if_pos hclose,
        crowdedBehind_eq_nil (isPunctuation_semicolon_eq_false (.inr hclose))]
      rfl
    · rw [if_neg hopen, if_neg hopen, if_neg hclose, if_neg hclose, crowdedBehind]
      split
      · rfl
      · rfl

theorem getLast?_cons_or (t : Token) (tokens : List Token) (previous : Option Token) :
    (t :: tokens).getLast?.or previous = tokens.getLast?.or (some t) := by
  rw [List.getLast?_cons]
  cases tokens.getLast? <;> rfl

/-- Behind a beginning the scan goes on with the brackets that are open there. What it finds up to there depends on the
first token behind the beginning, and on no other. -/
theorem crowded_append (front : List Token) : crowded pending previous (front ++ t :: rest) =
    crowded pending previous (front ++ [t]) ++
      crowded (front.foldl pendingBehind pending) (front.getLast?.or previous) (t :: rest) := by
  induction front generalizing pending previous with
  | nil =>
    have halone : crowded pending previous [t] = [] := by
      rw [crowded_cons, crowdedBehind, List.head?_nil, startsOnSameLine, Bool.and_false, if_neg Bool.false_ne_true,
        crowded]
      rfl
    rw [List.nil_append, List.nil_append, halone]
    rfl
  | cons u front ih =>
    have hhead : (front ++ t :: rest).head? = (front ++ [t]).head? := by
      cases front <;> rfl
    rw [List.cons_append, List.cons_append, crowded_cons, crowded_cons, ih, hhead, getLast?_cons_or, List.foldl_cons,
      List.append_assoc]

/-- The text closes the brackets `inner` that are open in front of it, and all that it opens. No semicolon stands
outside of them. -/
structure IsEnclosed (inner : List String) (tokens : List Token) : Prop where
  closed : (unmatched tokens).map List.length = some inner.length
  unbroken : ∀ t ∈ outermost inner.length tokens, t.isPunctuation ";" = false

instance (inner : List String) (tokens : List Token) : Decidable (IsEnclosed inner tokens) :=
  decidable_of_iff
    ((unmatched tokens).map List.length = some inner.length ∧
      ∀ t ∈ outermost inner.length tokens, t.isPunctuation ";" = false)
    ⟨fun ⟨hclosed, hunbroken⟩ => ⟨hclosed, hunbroken⟩, fun ⟨hclosed, hunbroken⟩ => ⟨hclosed, hunbroken⟩⟩

/-- What comes behind the first token is enclosed in the brackets that are open there. A semicolon stands inside
brackets that are closed behind it, so that the text goes on. -/
theorem IsEnclosed.step {inner : List String} (h : IsEnclosed inner (t :: rest)) :
    (∀ outer, pendingBehind (inner ++ outer) t = pendingBehind inner t ++ outer) ∧
      IsEnclosed (pendingBehind inner t) rest ∧ (t.isPunctuation ";" → inner ≠ [] ∧ rest ≠ []) := by
  obtain ⟨hclosed, hunbroken⟩ := h
  obtain ⟨closers, hclosers, hlength⟩ := Option.map_eq_some_iff.mp hclosed
  rw [outermost] at hunbroken
  by_cases hopen : t.isOpener
  · have hpending (brackets : List String) : pendingBehind brackets t = t.text :: brackets := by
      rw [pendingBehind, if_pos hopen]
    rw [if_pos hopen] at hunbroken
    rw [hpending inner]
    refine ⟨fun _ => hpending _, ⟨?_, hunbroken⟩, ?_⟩
    · rw [unmatched_of_opener hclosers hopen, Option.map_some, List.length_cons, hlength]
      rfl
    · intro hsemicolon
      rw [isPunctuation_semicolon_eq_false (.inl hopen)] at hsemicolon
      cases hsemicolon
  · rw [if_neg hopen] at hunbroken
    by_cases hclose : t.isCloser
    · have hpending (brackets : List String) : pendingBehind brackets t = brackets.tail := by
        rw [pendingBehind, if_neg hopen, if_pos hclose]
      obtain ⟨closers, rfl, hrest⟩ := unmatched_of_closer hclosers hclose
      obtain ⟨bracket, inner, rfl⟩ := List.exists_cons_of_length_eq_add_one hlength.symm
      rw [if_pos hclose] at hunbroken
      rw [hpending (bracket :: inner)]
      refine ⟨fun _ => hpending _, ⟨?_, hunbroken⟩, ?_⟩
      · rw [hrest, Option.map_some, Nat.succ.inj hlength]
        rfl
      · intro hsemicolon
        rw [isPunctuation_semicolon_eq_false (.inr hclose)] at hsemicolon
        cases hsemicolon
    · have hpending (brackets : List String) : pendingBehind brackets t = brackets := by
        rw [pendingBehind, if_neg hopen, if_neg hclose]
      have hrest := unmatched_of_other hopen hclose ▸ hclosers
      rw [if_neg hclose] at hunbroken
      rw [hpending inner]
      refine ⟨fun _ => hpending _, ⟨?_, fun u hu => hunbroken u ?_⟩, fun hsemicolon => ?_⟩
      · rw [hrest, Option.map_some, hlength]
      · split
        · exact List.mem_cons_of_mem t hu
        · exact hu
      · have hinner : inner ≠ [] := by
          rintro rfl
          rw [hunbroken t (List.mem_cons_self ..)] at hsemicolon
          cases hsemicolon
        refine ⟨hinner, ?_⟩
        rintro rfl
        cases hrest
        exact hinner (List.length_eq_zero_iff.mp hlength.symm)

/-- Words and marks in front of enclosed text. -/
theorem IsEnclosed.append {front : List Token} (h : IsEnclosed [] rest)
    (hfront : ∀ t ∈ front, t.isOpener = false ∧ t.isCloser = false ∧ t.isPunctuation ";" = false) :
    IsEnclosed [] (front ++ rest) := by
  induction front with
  | nil => exact h
  | cons t front ih =>
    obtain ⟨⟨hopen, hclose, hsemicolon⟩, hothers⟩ := List.forall_mem_cons.mp hfront
    obtain ⟨hclosed, hunbroken⟩ := ih hothers
    constructor
    · rwa [List.cons_append, unmatched_of_other (Bool.eq_false_iff.mp hopen) (Bool.eq_false_iff.mp hclose)]
    · rw [List.cons_append, outermost, hopen, hclose, if_neg Bool.false_ne_true, if_neg Bool.false_ne_true,
        List.length_nil, if_pos rfl]
      exact List.forall_mem_cons.mpr ⟨hsemicolon, hunbroken⟩

/-- What is found in enclosed text depends on nothing around it. Behind the text the scan goes on with the brackets that
are open around it. -/
theorem IsEnclosed.crowded_append {tokens : List Token} {inner : List String} (h : IsEnclosed inner tokens)
    (outer : List String) : crowded (inner ++ outer) previous (tokens ++ rest) =
      crowded inner previous tokens ++ crowded outer (tokens.getLast?.or previous) rest := by
  induction tokens generalizing inner previous with
  | nil =>
    obtain rfl : inner = [] := List.length_eq_zero_iff.mp (Option.some.inj h.closed).symm
    rfl
  | cons t tokens ih =>
    obtain ⟨hpending, hrest, hsemicolon⟩ := h.step
    have hbehind : crowdedBehind (inner ++ outer) previous t (tokens ++ rest).head? =
        crowdedBehind inner previous t tokens.head? := by
      cases hmark : t.isPunctuation ";" with
      | false => rw [crowdedBehind_eq_nil hmark, crowdedBehind_eq_nil hmark]
      | true =>
        obtain ⟨hinner, htokens⟩ := hsemicolon hmark
        rw [crowdedBehind, List.head?_append_of_ne_nil inner hinner, List.head?_append_of_ne_nil tokens htokens]
        rfl
    rw [List.cons_append, crowded_cons, crowded_cons, getLast?_cons_or, hbehind, hpending, ih hrest, List.append_assoc]

/-- Without braces, the semicolons of enclosed text stand in parentheses or square brackets. -/
theorem IsEnclosed.crowded_eq_nil {tokens : List Token} {inner : List String} (h : IsEnclosed inner tokens)
    (hinner : "\x7b" ∉ inner) (hbraces : ∀ t ∈ tokens, t.isPunctuation "\x7b" = false) :
    crowded inner previous tokens = [] := by
  induction tokens generalizing inner previous with
  | nil => rfl
  | cons t tokens ih =>
    obtain ⟨ht, htokens⟩ := List.forall_mem_cons.mp hbraces
    obtain ⟨-, hrest, hsemicolon⟩ := h.step
    have hbehind : crowdedBehind inner previous t tokens.head? = [] := by
      cases hmark : t.isPunctuation ";" with
      | false => exact crowdedBehind_eq_nil hmark ..
      | true =>
        obtain ⟨bracket, brackets, rfl⟩ := List.exists_cons_of_ne_nil (hsemicolon hmark).1
        have hbracket : (bracket == "\x7b") = false :=
          beq_eq_false_iff_ne.mpr fun heq => hinner (heq ▸ List.mem_cons_self ..)
        rw [crowdedBehind, endsStatement, List.head?_cons, Option.all_some, hbracket, Bool.false_and, Bool.and_false,
          Bool.false_and, if_neg Bool.false_ne_true]
    have hpending : "\x7b" ∉ pendingBehind inner t := by
      rw [pendingBehind]
      split
      · rename_i hopen
        refine List.not_mem_cons_of_ne_of_not_mem (fun heq => ?_) hinner
        rw [isPunctuation, (Bool.and_eq_true_iff.mp hopen).1, ← heq] at ht
        cases ht
      · split
        · exact fun hmem => hinner (List.mem_of_mem_tail hmem)
        · exact hinner
    rw [crowded_cons, hbehind, ih hrest hpending htokens]
    rfl

end CSharpStyle.OneStatementPerLine
