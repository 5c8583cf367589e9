import CSharpStyle.Proofs.Operands.Extent
import Mathlib.Algebra.GroupWithZero.Nat
import Mathlib.Data.List.SplitBy

/-!
# Angle brackets that are taken for comparisons

In a text without other comparisons the angle brackets decide whether an operand counts as boolean. Marks `>` that are
written flush close as many open `<` as they are, or none if fewer are open.

* `hasStrayAngle`: an angle bracket of a text is left over, and is taken for a comparison.
* `flushAngles_closers`: the check takes the marks `>` in maximal flush runs.
* `IsPiece.isBoolean_append`: a text whose `>` come last is boolean if and only if an angle bracket is left over.
-/

namespace CSharpStyle.ShortCircuit

/-- The token `u` is written flush behind `t`. -/
def isFlush (t u : Token) : Bool := u.start.offset == t.span.stop.offset

/-- How many marks `>` there are in each flush run of them. -/
def angleRuns (tokens : List Token) : List Nat :=
  ((tokens.filter (·.isPunctuation ">")).splitBy isFlush).map List.length

/-- Whether runs of `>` behind `angles` open `<` leave one open, or have a single `>` for which none is open. -/
def leavesAngle : Nat → List Nat → Bool
  | angles, [] => 0 < angles
  | angles, run :: runs =>
    if run ≤ angles then leavesAngle (angles - run) runs else run == 1 || leavesAngle angles runs

/-- Whether an angle bracket is left over in a text in which all `<` stand in front of all `>`. -/
def hasStrayAngle (tokens : List Token) : Bool := leavesAngle (tokens.countP (·.isPunctuation "<")) (angleRuns tokens)

/-- As long as the runs find enough open brackets, they close them one by one. -/
theorem leavesAngle_of_sum_le {angles : Nat} {runs : List Nat} (h : runs.sum ≤ angles) :
    leavesAngle angles runs ↔ runs.sum < angles := by
  induction runs generalizing angles with
  | nil => simp [leavesAngle]
  | cons run runs ih =>
    rw [List.sum_cons] at h ⊢
    rw [leavesAngle, if_pos (by omega), ih (by omega)]
    omega

theorem sum_angleRuns (tokens : List Token) :
    (angleRuns tokens).sum = tokens.countP (·.isPunctuation ">") := by
  rw [angleRuns, ← List.length_flatten, List.flatten_splitBy, ← List.countP_eq_length_filter]

/-- If no more brackets are closed than opened in a text, one is left over if and only if fewer are closed. -/
theorem hasStrayAngle_iff {tokens : List Token}
    (h : tokens.countP (·.isPunctuation ">") ≤ tokens.countP (·.isPunctuation "<")) :
    hasStrayAngle tokens ↔ tokens.countP (·.isPunctuation ">") < tokens.countP (·.isPunctuation "<") := by
  rw [← sum_angleRuns] at h ⊢
  exact leavesAngle_of_sum_le h

/-! ### The scan for comparisons -/

/-- The token is neither an angle bracket nor another bracket, and no operator that the check looks for. -/
structure IsInert (t : Token) : Prop where
  opens : opens t = false
  closes : closes t = false
  greater : t.isPunctuation ">" = false
  less : t.isPunctuation "<" = false
  comparison : isComparison t = false
  negation : t.isPunctuation "!" = false
  operator : shortForm? t = none

variable {angles : Nat} {relational : Bool} {rest : List Token}

/-- In front of the marks `>`, each `<` opens a bracket. -/
theorem hasComparison_openers {openers : List Token} (h : ∀ t ∈ openers, IsInert t ∨ t.isPunctuation "<") :
    hasComparison 0 angles relational (openers ++ rest) =
      hasComparison 0 (angles + openers.countP (·.isPunctuation "<")) relational rest := by
  induction openers generalizing angles with
  | nil => rfl
  | cons t openers ih =>
    have hrest (count : Nat) : hasComparison 0 count relational (openers ++ rest) =
        hasComparison 0 (count + openers.countP (·.isPunctuation "<")) relational rest :=
      ih fun u hu => h u (List.mem_cons_of_mem t hu)
    rw [List.cons_append, hasComparison]
    rcases h t (List.mem_cons_self ..) with ht | ht
    · rw [List.countP_cons_of_neg (p := (Token.isPunctuation · "<")) (Bool.eq_false_iff.mp ht.less)]
      simp only [ht.opens, ht.closes, ht.greater, ht.less, ht.comparison, Bool.false_eq_true, ↓reduceIte,
        Nat.lt_irrefl, hrest]
    · rw [List.countP_cons_of_pos (p := (Token.isPunctuation · "<")) ht]
      obtain ⟨span, rfl⟩ := exists_eq_of_isPunctuation ht
      refine (hrest (angles + 1)).trans ?_
      rw [Nat.add_assoc, Nat.add_comm 1]

/-- Behind a mark `>` the check finds the marks that are written flush, and stops at the first one that is not. -/
theorem flushAngles_closers {t : Token} {closers : List Token} (hclosers : ∀ u ∈ closers, u.isPunctuation ">")
    (hrest : ∀ u ∈ rest.head?, IsInert u) :
    ∃ run behind, closers = run ++ behind ∧ (t :: run).IsChain (isFlush · ·) ∧
      (∀ x ∈ (t :: run).getLast?, ∀ y ∈ behind.head?, isFlush x y = false) ∧
      flushAngles t.span.stop.offset (closers ++ rest) = (run.length, false, behind ++ rest) := by
  induction closers generalizing t with
  | nil =>
    refine ⟨[], [], rfl, .singleton t, nofun, ?_⟩
    rw [List.nil_append]
    cases rest with
    | nil => rfl
    | cons u rest =>
      have hu := hrest u rfl
      have hassigns : u.isPunctuation ">=" = false := by
        have hcomparison := hu.comparison
        simp only [isComparison, Bool.or_eq_false_iff] at hcomparison
        exact hcomparison.1.2
      rw [flushAngles]
      simp only [hu.greater, hassigns, Bool.false_eq_true, ↓reduceIte, ite_self, List.length_nil]
  | cons u closers ih =>
    have hu : u.isPunctuation ">" := hclosers u (List.mem_cons_self ..)
    rw [List.cons_append, flushAngles]
    by_cases hflush : u.start.offset = t.span.stop.offset
    · obtain ⟨run, behind, rfl, hchain, hend, hrun⟩ := ih (t := u) fun v hv => hclosers v (List.mem_cons_of_mem u hv)
      refine ⟨u :: run, behind, rfl, List.isChain_cons_cons.mpr ⟨beq_iff_eq.mpr hflush, hchain⟩, ?_, ?_⟩
      · rwa [List.getLast?_cons_cons]
      · rw [if_neg (by simpa using hflush), if_pos hu, hrun]
        rfl
    · refine ⟨[], u :: closers, rfl, .singleton t, ?_, ?_⟩
      · intro x hx y hy
        cases hx
        cases hy
        exact beq_eq_false_iff_ne.mpr hflush
      · rw [if_pos (by simpa using hflush)]
        rfl

/-- Marks `>` in front of a text that does not compare leave an angle bracket or none. -/
theorem hasComparison_closers {closers : List Token} (hclosers : ∀ t ∈ closers, t.isPunctuation ">")
    (hrest : ∀ t ∈ rest, IsInert t) :
    hasComparison 0 angles relational (closers ++ rest) =
      (relational || leavesAngle angles ((closers.splitBy isFlush).map List.length)) := by
  -- The scan goes on behind a whole run, so that the induction is on the number of marks.
  induction hlength : closers.length using Nat.strong_induction_on generalizing closers angles relational with
  | _ length ih =>
  cases closers with
  | nil =>
    have hinert : hasComparison 0 angles relational (rest ++ []) =
        hasComparison 0 (angles + rest.countP (·.isPunctuation "<")) relational [] :=
      hasComparison_openers fun t ht => .inl (hrest t ht)
    have hcount : rest.countP (·.isPunctuation "<") = 0 :=
      List.countP_eq_zero.mpr fun t ht => Bool.eq_false_iff.mp (hrest t ht).less
    rw [List.append_nil, hcount] at hinert
    rw [List.nil_append, hinert, hasComparison]
    rfl
  | cons t closers =>
    have ht : t.isPunctuation ">" := hclosers t (List.mem_cons_self ..)
    have hothers : ∀ u ∈ closers, u.isPunctuation ">" := fun u hu => hclosers u (List.mem_cons_of_mem t hu)
    obtain ⟨run, behind, rfl, hchain, hend, hrun⟩ :=
      flushAngles_closers (t := t) hothers fun u hu => hrest u (List.mem_of_mem_head? hu)
    have hbehind (count : Nat) (lone : Bool) : hasComparison 0 count lone (behind ++ rest) =
        (lone || leavesAngle count ((behind.splitBy isFlush).map List.length)) := by
      have hless : behind.length < length := by
        rw [← hlength, List.length_cons, List.length_append]
        omega
      exact ih behind.length hless (fun u hu => hothers u (List.mem_append_right run hu)) rfl
    have hruns : ((t :: (run ++ behind)).splitBy isFlush).map List.length =
        (run.length + 1) :: (behind.splitBy isFlush).map List.length := by
      rw [← List.cons_append, List.splitBy_append hend, List.splitBy_of_isChain (List.cons_ne_nil t run) hchain]
      rfl
    obtain ⟨span, rfl⟩ := exists_eq_of_isPunctuation ht
    rw [hruns, leavesAngle, List.cons_append, hasComparison]
    simp only [hrun]
    change (if run.length + 1 ≤ angles then hasComparison 0 (angles - (run.length + 1)) relational (behind ++ rest)
      else hasComparison 0 angles (relational || run.length == 0) (behind ++ rest)) = _
    by_cases hmany : run.length + 1 ≤ angles
    · rw [if_pos hmany, if_pos hmany, hbehind]
    · have hsingle : (run.length + 1 == 1) = (run.length == 0) := by simp
      rw [if_neg hmany, if_neg hmany, hbehind, Bool.or_assoc, hsingle]

/-- Text without other brackets and comparisons, in which nothing but `>` comes behind a `>`. -/
structure IsPiece (tokens : List Token) : Prop where
  kinds : ∀ t ∈ tokens, IsInert t ∨ t.isPunctuation "<" ∨ t.isPunctuation ">"
  chain : tokens.IsChain fun t u => t.isPunctuation ">" → u.isPunctuation ">"

theorem IsPiece.exists_openers {tokens : List Token} (h : IsPiece tokens) :
    ∃ openers closers, tokens = openers ++ closers ∧ (∀ t ∈ openers, IsInert t ∨ t.isPunctuation "<") ∧
      ∀ t ∈ closers, t.isPunctuation ">" := by
  induction tokens with
  | nil => exact ⟨[], [], rfl, nofun, nofun⟩
  | cons t tokens ih =>
    obtain ⟨hhead, htail⟩ := List.isChain_cons.mp h.chain
    obtain ⟨openers, closers, rfl, hopeners, hclosers⟩ := ih ⟨fun u hu => h.kinds u (List.mem_cons_of_mem t hu), htail⟩
    by_cases hgreater : t.isPunctuation ">"
    · -- No opener can follow.
      cases openers with
      | nil => exact ⟨[], t :: closers, rfl, nofun, List.forall_mem_cons.mpr ⟨hgreater, hclosers⟩⟩
      | cons u openers =>
        obtain ⟨span, rfl⟩ := exists_eq_of_isPunctuation (hhead u rfl hgreater)
        rcases hopeners _ (List.mem_cons_self ..) with hinert | hless
        · exact absurd hinert.greater.symm Bool.false_ne_true
        · exact absurd hless Bool.false_ne_true
    · have ht : IsInert t ∨ t.isPunctuation "<" := by
        rcases h.kinds t (List.mem_cons_self ..) with hinert | hless | h
        · exact .inl hinert
        · exact .inr hless
        · exact absurd h hgreater
      exact ⟨t :: openers, closers, rfl, List.forall_mem_cons.mpr ⟨ht, hopeners⟩, hclosers⟩

/-- A piece in front of text that does not compare contains a comparison if and only if an angle bracket is left. -/
theorem IsPiece.hasComparison_append {piece : List Token} (h : IsPiece piece) (hrest : ∀ t ∈ rest, IsInert t) :
    hasComparison 0 0 false (piece ++ rest) = hasStrayAngle piece := by
  obtain ⟨openers, closers, rfl, hopeners, hclosers⟩ := h.exists_openers
  have hless : closers.countP (·.isPunctuation "<") = 0 := by
    refine List.countP_eq_zero.mpr fun t ht => ?_
    obtain ⟨span, rfl⟩ := exists_eq_of_isPunctuation (hclosers t ht)
    exact Bool.false_ne_true
  have hgreater : openers.filter (·.isPunctuation ">") = [] := by
    refine List.filter_eq_nil_iff.mpr fun t ht => ?_
    rcases hopeners t ht with hinert | hless
    · exact Bool.eq_false_iff.mp hinert.greater
    · obtain ⟨span, rfl⟩ := exists_eq_of_isPunctuation hless
      exact Bool.false_ne_true
  have hall : closers.filter (·.isPunctuation ">") = closers := List.filter_eq_self.mpr hclosers
  rw [List.append_assoc, hasComparison_openers hopeners, hasComparison_closers hclosers hrest, hasStrayAngle, angleRuns,
    List.filter_append, hgreater, hall, List.countP_append, hless, Nat.zero_add, Nat.add_zero, Bool.false_or,
    List.nil_append]

/-- Such text is boolean if and only if an angle bracket is left. -/
theorem IsPiece.isBoolean_append {piece : List Token} (h : IsPiece piece) (hrest : ∀ t ∈ rest, IsInert t)
    (hlength : 2 ≤ (piece ++ rest).length) : isBoolean (piece ++ rest) = hasStrayAngle piece := by
  rw [← h.hasComparison_append hrest]
  have hkinds : ∀ t ∈ piece ++ rest, IsInert t ∨ t.isPunctuation "<" ∨ t.isPunctuation ">" :=
    List.forall_mem_append.mpr ⟨h.kinds, fun t ht => .inl (hrest t ht)⟩
  generalize piece ++ rest = tokens at *
  match tokens with
  | first :: second :: others =>
    have hfirst : first.isPunctuation "!" = false ∧ first.isPunctuation "(" = false := by
      rcases hkinds first (List.mem_cons_self ..) with hinert | hless | hgreater
      · exact ⟨hinert.negation, (Bool.or_eq_false_iff.mp hinert.opens).1⟩
      · obtain ⟨span, rfl⟩ := exists_eq_of_isPunctuation hless
        exact ⟨rfl, rfl⟩
      · obtain ⟨span, rfl⟩ := exists_eq_of_isPunctuation hgreater
        exact ⟨rfl, rfl⟩
    rw [isBoolean, isBooleanWithin]
    · simp only [hfirst.1, hfirst.2, Bool.false_and, Bool.false_eq_true, ↓reduceIte]
    · exact List.cons_ne_nil second others

end CSharpStyle.ShortCircuit
