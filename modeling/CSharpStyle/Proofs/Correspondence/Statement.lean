import CSharpStyle.Proofs.Correspondence.LocalDeclaration
import CSharpStyle.Proofs.Grammar.StatementForm

/-!
# Corresponding statements

Every form of statement leads, and so does the reader of statements: the readers of the statements inside it are
used behind a token of the statement only.
-/

namespace CSharpStyle

namespace Correspondence

open Cursor

variable {C : Correspondence} {n : Nat} {f g : StatementReader} {s t : Reading} {i j : ScopeId}

theorem switchRound (hread : C.Statements n f g) (h : C.Related s t) (hij : C.scopes s.outline t.outline i j)
    (hn : s.size < n) {p q : Position} (hpq : C.positions p q) :
    Round.Rel (C.Advances s t) (C.Leads s t) (Reading.switchRound f p i s) (Reading.switchRound g q j t) := by
  rw [Reading.switchRound, Reading.switchRound]
  rcases h.peek_cases with ⟨hs, ht⟩ | ⟨a, b, hs, ht, hab⟩
  · rw [hs, ht]; exact .done (h.reportAt hpq _)
  · have hne := ahead_ne_nil_of_peek? hs
    have hnext := h.next hne
    simp only [hs, ht, ← (C.alike hab).isPunctuation, ← (C.alike hab).isKeyword, ← h.seesSecond]
    split
    · exact .done hnext.leads
    · split
      · have hlabel := hnext.trans (skipExpression hread hnext.leads.related (hnext.leads.scopes hij)
          (Nat.le_of_lt (Nat.lt_of_le_of_lt hnext.leads.size_le hn)) [":"])
        exact .again (hlabel.trans (hlabel.leads.related.skip ":"))
      · split
        · rename_i hdefault
          obtain ⟨c, hc, -⟩ := (Option.any_eq_true _ _).mp (Bool.and_eq_true_iff.mp hdefault).2
          exact .again (hnext.trans (hnext.leads.related.next (ahead_ne_nil_of_peek? hc)).leads)
        · exact .again (h.progress hne (hread h hij hn))

theorem switchStatement (hread : C.Statements n f g) (h : C.Related s t)
    (hij : C.scopes s.outline t.outline i j) (hn : s.size ≤ n) (hne : s.cursor.ahead ≠ []) :
    C.Leads s t (Reading.switchStatement f i s) (Reading.switchStatement g j t) := by
  have hnext := h.next hne
  have hhead := hnext.trans (skipParenthesized hread hnext.leads.related (hnext.leads.scopes hij)
    (Nat.le_trans hnext.leads.size_le hn))
  simp only [Reading.switchStatement, ← hhead.leads.related.sees]
  split
  · rename_i hbrace
    have hbody := hhead.leads.related.next (ahead_ne_nil_of_sees hbrace)
    obtain ⟨hopen, hscope⟩ :=
      hbody.leads.related.openScope (hbody.leads.scopes (hhead.leads.scopes hij)) .block none (by decide)
    have hbehind := hhead.trans (hbody.leads.trans hopen)
    refine hbehind.leads.trans (rounds_leads hopen.related fun h' => ?_)
    refine switchRound hread h'.related (h'.scopes hscope) ?_ (C.position hhead.leads.related.cursor)
    exact Nat.lt_of_le_of_lt h'.size_le (Nat.lt_of_lt_of_le hbehind.size_lt hn)
  · exact hhead.leads.trans (hhead.leads.related.report _)

theorem forInitializer (hread : C.Statements n f g) (h : C.Related s t)
    (hij : C.scopes s.outline t.outline i j) (hn : s.size ≤ n) :
    C.Leads s t (Reading.forInitializer f i s) (Reading.forInitializer g j t) := by
  rw [Reading.forInitializer, Reading.forInitializer]
  rcases h.eat_cases ";" with ⟨hs, ht⟩ | ⟨s', t', hs, ht, h'⟩
  · rw [hs, ht]; exact localDeclarationOr hread h hij hn _ (skipToStatementEnd hread h hij hn)
  · rw [hs, ht]; exact h'.leads

/-- The rest of a loop or `using` statement: its header up to the parenthesis, and the statement that it controls. -/
private theorem skipExpression_embedded (hread : C.Statements n f g) (h : C.Related s t)
    (hij : C.scopes s.outline t.outline i j) (hn : s.size < n) (defect : Defect) :
    C.Leads s t
      (Reading.embedded f i ((Reading.skipExpression f i [] s).require ")" defect))
      (Reading.embedded g j ((Reading.skipExpression g j [] t).require ")" defect)) := by
  have hskip := skipExpression hread h hij (Nat.le_of_lt hn) []
  have hheader := hskip.trans (hskip.related.require ")" defect)
  exact hheader.trans
    (embedded hread hheader.related (hheader.scopes hij) (Nat.lt_of_le_of_lt hheader.size_le hn))

theorem forStatement (hread : C.Statements n f g) (h : C.Related s t) (hij : C.scopes s.outline t.outline i j)
    (hn : s.size ≤ n) (hne : s.cursor.ahead ≠ []) :
    C.Leads s t (Reading.forStatement f i s) (Reading.forStatement g j t) := by
  have hnext := h.next hne
  simp only [Reading.forStatement]
  rcases hnext.leads.related.eat_cases "(" with ⟨hs, ht⟩ | ⟨s', t', hs, ht, hparen⟩
  · rw [hs, ht]; exact hnext.leads.trans (hnext.leads.related.report _)
  · rw [hs, ht]
    have hparen := hnext.trans hparen.leads
    obtain ⟨hopen, hinner⟩ := hparen.leads.related.openScope (hparen.leads.scopes hij) .block none (by decide)
    have hlt := Nat.lt_of_lt_of_le (hparen.trans hopen).size_lt hn
    have hinit := forInitializer hread hopen.related hinner (Nat.le_of_lt hlt)
    have hcondition := hinit.trans (skipToStatementEnd hread hinit.related (hinit.scopes hinner)
      (Nat.le_of_lt (Nat.lt_of_le_of_lt hinit.size_le hlt)))
    exact (hparen.leads.trans hopen).trans (hcondition.trans (skipExpression_embedded hread hcondition.related
      (hcondition.scopes hinner) (Nat.lt_of_le_of_lt hcondition.size_le hlt) _))

theorem Related.iteration (h : C.Related s t) (hij : C.scopes s.outline t.outline i j) :
    C.Leads s t (s.iteration i) (t.iteration j) := by
  have hnames := (C.lockstep s.size).iterationVariables h.within
  simp only [Reading.iteration]
  cases hs : Reading.iterationVariables s.cursor with
  | mk found c =>
    cases ht : Reading.iterationVariables t.cursor with
    | mk found' d =>
      rw [hs, ht] at hnames
      obtain ⟨hfound, hmove⟩ := hnames
      have hmove := h.move hmove
      simp only [← hmove.related.seesKeyword]
      rcases rel_cases hfound with ⟨rfl, rfl⟩ | ⟨names, names', rfl, rfl, hnames⟩
      · exact hmove.trans (hmove.related.report _)
      · generalize Reading.seesKeyword _ "in" = isIn
        cases isIn with
        | false => exact hmove.trans (hmove.related.report _)
        | true => exact hmove.trans (hmove.related.declareNames (hmove.scopes hij) hnames true .notApplicable)

theorem foreachStatement (hread : C.Statements n f g) (h : C.Related s t)
    (hij : C.scopes s.outline t.outline i j) (hn : s.size ≤ n) (hne : s.cursor.ahead ≠ []) :
    C.Leads s t (Reading.foreachStatement f i s) (Reading.foreachStatement g j t) := by
  have hnext := h.next hne
  simp only [Reading.foreachStatement]
  rcases hnext.leads.related.eat_cases "(" with ⟨hs, ht⟩ | ⟨s', t', hs, ht, hparen⟩
  · rw [hs, ht]; exact hnext.leads.trans (hnext.leads.related.report _)
  · rw [hs, ht]
    have hparen := hnext.trans hparen.leads
    obtain ⟨hopen, hinner⟩ := hparen.leads.related.openScope (hparen.leads.scopes hij) .block none (by decide)
    have hlt := Nat.lt_of_lt_of_le (hparen.trans hopen).size_lt hn
    have hnames := hopen.related.iteration hinner
    exact (hparen.leads.trans hopen).trans (hnames.trans (skipExpression_embedded hread hnames.related
      (hnames.scopes hinner) (Nat.lt_of_le_of_lt hnames.size_le hlt) _))

theorem usingStatement (hread : C.Statements n f g) (h : C.Related s t)
    (hij : C.scopes s.outline t.outline i j) (hn : s.size ≤ n) (hne : s.cursor.ahead ≠ []) :
    C.Leads s t (Reading.usingStatement f i s) (Reading.usingStatement g j t) := by
  have hnext := h.next hne
  have hnextn := Nat.le_trans hnext.leads.size_le hn
  simp only [Reading.usingStatement]
  rcases hnext.leads.related.eat_cases "(" with ⟨hs, ht⟩ | ⟨s', t', hs, ht, hparen⟩
  · rw [hs, ht]
    exact hnext.leads.trans (localDeclarationOr hread hnext.leads.related (hnext.leads.scopes hij) hnextn _
      (skipToStatementEnd hread hnext.leads.related (hnext.leads.scopes hij) hnextn))
  · rw [hs, ht]
    have hparen := hnext.trans hparen.leads
    obtain ⟨hopen, hinner⟩ := hparen.leads.related.openScope (hparen.leads.scopes hij) .block none (by decide)
    have hlt := Nat.lt_of_lt_of_le (hparen.trans hopen).size_lt hn
    have hresource := localDeclarationOr hread hopen.related hinner (Nat.le_of_lt hlt) .usingResource
      (skipExpression hread hopen.related hinner (Nat.le_of_lt hlt) [])
    have hheader := hresource.trans (hresource.related.require ")" (.expected "')' after using resource"))
    exact (hparen.leads.trans hopen).trans (hheader.trans (embedded hread hheader.related (hheader.scopes hinner)
      (Nat.lt_of_le_of_lt hheader.size_le hlt)))

theorem constantStatement (hread : C.Statements n f g) (h : C.Related s t)
    (hij : C.scopes s.outline t.outline i j) (hn : s.size ≤ n) (hne : s.cursor.ahead ≠ []) :
    C.Leads s t (Reading.constantStatement f i s) (Reading.constantStatement g j t) := by
  have hnext := h.next hne
  have hnextn := Nat.le_trans hnext.leads.size_le hn
  have hreport := hnext.leads.related.report (.malformed "local constant")
  exact hnext.leads.trans (localDeclarationOr hread hnext.leads.related (hnext.leads.scopes hij) hnextn .constant
    (hreport.trans (skipToStatementEnd hread hreport.related (hreport.scopes (hnext.leads.scopes hij))
      (Nat.le_trans hreport.size_le hnextn))))

theorem declarationOrExpression (hread : C.Statements n f g) (h : C.Related s t)
    (hij : C.scopes s.outline t.outline i j) (hn : s.size ≤ n) :
    C.Leads s t (Reading.declarationOrExpression f i s) (Reading.declarationOrExpression g j t) := by
  rw [Reading.declarationOrExpression, Reading.declarationOrExpression]
  rcases rel_cases ((C.lockstep s.size).localFunctionName? h.within) with
    ⟨hs, ht⟩ | ⟨⟨a, c⟩, ⟨b, d⟩, hs, ht, hab, hmove⟩
  · rw [hs, ht]; exact localDeclarationOr hread h hij hn _ (skipToStatementEnd hread h hij hn)
  · have hmove := h.move hmove
    rw [hs, ht]
    exact hmove.trans
      (localFunction hread hmove.related (hmove.scopes hij) (Nat.le_trans hmove.size_le hn) hab)

theorem keywordStatement (hread : C.Statements n f g) (h : C.Related s t)
    (hij : C.scopes s.outline t.outline i j) (hn : s.size ≤ n) (hne : s.cursor.ahead ≠ []) (word : String) :
    C.Leads s t (Reading.keywordStatement f word i s) (Reading.keywordStatement g word j t) := by
  have hnext := h.next hne
  have hij' := hnext.leads.scopes hij
  have hlt := Nat.lt_of_lt_of_le hnext.size_lt hn
  have hle := Nat.le_of_lt hlt
  have hend := skipToStatementEnd hread h hij hn
  have hdeclaration := declarationOrExpression hread h hij hn
  have hbody := hnext.leads.trans (embedded hread hnext.leads.related hij' hlt)
  have hhead := hnext.trans (skipParenthesized hread hnext.leads.related hij' hle)
  rw [Reading.keywordStatement_eq_read, Reading.keywordStatement_eq_read]
  cases StatementForm.ofKeyword word with
  | headed =>
    exact hhead.leads.trans (embedded hread hhead.leads.related (hhead.leads.scopes hij)
      (Nat.lt_of_lt_of_le hhead.size_lt hn))
  | bare => exact hbody
  | context =>
    rw [StatementForm.read, StatementForm.read, ← h.seesSecond]
    split
    · rename_i hbrace
      obtain ⟨a, ha, -⟩ := (Option.any_eq_true _ _).mp hbrace
      exact hnext.leads.trans (block hread hnext.leads.related hij' hle (ahead_ne_nil_of_peek? ha)).leads
    · exact hdeclaration
  | doLoop =>
    dsimp only [StatementForm.read]
    rcases hbody.related.eatKeyword_cases "while" with ⟨hs, ht⟩ | ⟨s', t', hs, ht, hwhile⟩
    · rw [hs, ht]; exact hbody
    · have hwhile := hbody.trans hwhile.leads
      rw [hs, ht]
      exact hwhile.trans
        (skipToStatementEnd hread hwhile.related (hwhile.scopes hij) (Nat.le_trans hwhile.size_le hn))
  | handler =>
    have hguard : C.Advances s t
        (((Reading.skipParenthesized f i s.next).eatKeyword? "when").elim (Reading.skipParenthesized f i s.next)
          (Reading.skipParenthesized f i))
        (((Reading.skipParenthesized g j t.next).eatKeyword? "when").elim (Reading.skipParenthesized g j t.next)
          (Reading.skipParenthesized g j)) := by
      rcases hhead.leads.related.eatKeyword_cases "when" with ⟨hs, ht⟩ | ⟨s', t', hs, ht, hwhen⟩
      · rw [hs, ht]; exact hhead
      · have hwhen := hhead.trans hwhen.leads
        rw [hs, ht]
        exact hwhen.trans (skipParenthesized hread hwhen.leads.related (hwhen.leads.scopes hij)
          (Nat.le_trans hwhen.leads.size_le hn))
    exact hguard.leads.trans (embedded hread hguard.leads.related (hguard.leads.scopes hij)
      (Nat.lt_of_lt_of_le hguard.size_lt hn))
  | switch => exact switchStatement hread h hij hn hne
  | forLoop => exact forStatement hread h hij hn hne
  | foreachLoop => exact foreachStatement hread h hij hn hne
  | resource => exact usingStatement hread h hij hn hne
  | constant => exact constantStatement hread h hij hn hne
  | await =>
    rw [StatementForm.read, StatementForm.read, ← hnext.leads.related.seesKeyword,
      ← hnext.leads.related.seesKeyword]
    have hne' {word : String} (hsees : s.next.seesKeyword word) : s.next.cursor.ahead ≠ [] := by
      obtain ⟨a, ha, -⟩ := (Option.any_eq_true _ _).mp hsees
      exact ahead_ne_nil_of_peek? ha
    split
    · exact hnext.leads.trans (foreachStatement hread hnext.leads.related hij' hle (hne' ‹_›))
    · split
      · exact hnext.leads.trans (usingStatement hread hnext.leads.related hij' hle (hne' ‹_›))
      · exact hend
  | jump => exact hend
  | declarationOrExpression => exact hdeclaration

theorem statementAt (hread : C.Statements n f g) (h : C.Related s t) (hij : C.scopes s.outline t.outline i j)
    (hn : s.size ≤ n) : C.Leads s t (Reading.statementAt f i s) (Reading.statementAt g j t) := by
  have hdeclaration := declarationOrExpression hread h hij hn
  rw [Reading.statementAt, Reading.statementAt]
  rcases h.peek_cases with ⟨hs, ht⟩ | ⟨a, b, hs, ht, hab⟩
  · rw [hs, ht]; exact .refl h
  · have hne := ahead_ne_nil_of_peek? hs
    have hnext := h.next hne
    simp only [hs, ht, (C.alike hab).kind, (C.alike hab).text, ← h.seesSecond]
    split
    · exact keywordStatement hread h hij hn hne b.text
    · split
      · exact (block hread h hij hn hne).leads
      · split
        · exact hnext.leads
        · exact hdeclaration
    · split
      · rename_i hcolon
        obtain ⟨c, hc, -⟩ := (Option.any_eq_true _ _).mp hcolon
        exact hnext.leads.trans (hnext.leads.related.next (ahead_ne_nil_of_peek? hc)).leads
      · exact hdeclaration
    · exact hdeclaration

/-- The reader of statements leads. The induction is on the tokens ahead: the statements inside have fewer. -/
theorem statement (h : C.Related s t) (hij : C.scopes s.outline t.outline i j) :
    C.Leads s t (Statement.read i s) (Statement.read j t) := by
  induction hn : s.size using Nat.strongRecOn generalizing s t i j with
  | ind n ih =>
    rw [Statement.read, Statement.read]
    refine statementAt (n := n) (fun {s' t' i' j'} h' hij' hsize => ?_) h hij (Nat.le_of_eq hn)
    rw [if_pos (hn ▸ hsize), if_pos (by rwa [← h'.size_eq, ← h.size_eq, hn])]
    exact ih s'.size hsize h' hij' rfl

/-- Wherever they are used. -/
theorem statements (n : Nat) : C.Statements n Statement.read Statement.read := fun h hij _ => statement h hij

end Correspondence

end CSharpStyle
