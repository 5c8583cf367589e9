import CSharpStyle.Proofs.Recording.Step

/-!
# Runs through tokens, defects and loops

Every reader takes its reading to one that steps lead to, in the groups that were open and with the names that were
held. The readers that all others are made of only consume tokens, report defects, open scopes and go round.

* `rounds_all`: what every round keeps holds at the end of a loop.
* `Reading.Run.consume`: names that were consumed are held.
* `Reading.Run.recover`, `Attempt.Run.settle`: a defect leaves nothing behind.
-/

namespace CSharpStyle

/-- Both outcomes of a round satisfy what is said of them. -/
def Round.All {σ ρ : Type} (P : σ → Prop) (Q : ρ → Prop) : Round σ ρ → Prop
  | .again s => P s
  | .done r => Q r

/-- What every round keeps holds at the end of a loop. -/
theorem rounds_all {σ ρ : Type} {size : σ → Nat} {round : σ → Round σ ρ} {stalled : σ → ρ} {P : σ → Prop} {Q : ρ → Prop}
    (hround : ∀ {s : σ}, P s → (round s).All P Q) (hstalled : ∀ {s : σ}, P s → Q (stalled s)) {s : σ} (h : P s) :
    Q (rounds size round stalled s) := by
  refine rounds_induction (fun {s t} hs heq => ?_) (fun {s r} hs heq => ?_) hstalled h
  · have hall := hround hs
    rwa [heq] at hall
  · have hall := hround hs
    rwa [heq] at hall

/-- A name is the token that was consumed with it. -/
theorem Reading.before_of_name? {s s' : Reading} {t : Token} (h : s.name? = some (t, s')) :
    s'.cursor.before = t :: s.cursor.before := by
  obtain ⟨⟨u, c⟩, hc, heq⟩ := Option.map_eq_some_iff.mp h
  cases heq
  exact Cursor.before_of_name? hc

/-- A name that is read goes on with those that it is joined to. -/
theorem Reading.joined_of_name? {s s' : Reading} {names : List Token} {t : Token} (h : s.cursor.Joins names)
    (hname : s.name? = some (t, s')) : Joined s'.cursor.before names t := by
  obtain ⟨⟨u, c⟩, hc, heq⟩ := Option.map_eq_some_iff.mp hname
  cases heq
  exact h.name? hc

theorem Reading.joins_of_eat? {s s' : Reading} {names : List Token} (h : s.eat? "," = some s') (hnames : names ≠ []) :
    s'.cursor.Joins names := by
  obtain ⟨c, hc, rfl⟩ := Option.map_eq_some_iff.mp h
  exact Cursor.joins_of_eat? hc hnames

theorem Reading.joins_of_type? {s s' : Reading} {isVar : Bool} (h : s.type? = some (isVar, s')) :
    s'.cursor.Joins [] := by
  obtain ⟨⟨found, c⟩, hc, heq⟩ := Option.map_eq_some_iff.mp h
  cases heq
  exact Cursor.joins_of_type? hc

namespace Reading.Run

variable {admitted : Declaration → Prop} {base : Stage} {opened : List DeclaratorGroup} {held : List Token}
  {s s' : Reading} {t : Token}

/-- Further tokens may be consumed as long as nothing is recorded. -/
theorem behind (h : s.Run admitted base opened held) (hcursor : s.cursor.before <:+ s'.cursor.before)
    (houtline : s'.outline = s.outline) : s'.Run admitted base opened held :=
  h.read (fun hcovers => hcovers.mono hcursor) hcursor houtline

/-- A name that is held may be dropped. -/
theorem tail (h : s.Run admitted base opened (t :: held)) : s.Run admitted base opened held :=
  h.read (fun hcovers => hcovers.tail) List.suffix_rfl rfl

/-! ### Consuming tokens -/

theorem move (h : s.Run admitted base opened held) {f : Cursor → Cursor}
    (hf : s.cursor.before <:+ (f s.cursor).before) :
    (s.move f).Run admitted base opened held := h.behind hf rfl

theorem next (h : s.Run admitted base opened held) : s.next.Run admitted base opened held :=
  h.move (Cursor.suffix_next _)

theorem skipPast (h : s.Run admitted base opened held) (mark : String) :
    (s.move (.skipPast mark)).Run admitted base opened held :=
  h.move (Cursor.suffix_skipPast _ mark)

theorem skipUntil (h : s.Run admitted base opened held) (stop : Token → Bool) :
    (s.move (.skipUntil stop)).Run admitted base opened held :=
  h.move (Cursor.suffix_skipUntil _ stop)

theorem skipWhile (h : s.Run admitted base opened held) (p : Token → Bool) :
    (s.move (.skipWhile p)).Run admitted base opened held :=
  h.move (Cursor.suffix_skipWhile _ p)

theorem skipGroup (h : s.Run admitted base opened held) :
    (s.move .skipGroup).Run admitted base opened held := h.move (Cursor.suffix_skipGroup _)

theorem eat (h : s.Run admitted base opened held) {mark : String} (heat : s.eat? mark = some s') :
    s'.Run admitted base opened held := by
  obtain ⟨c, hc, rfl⟩ := Option.map_eq_some_iff.mp heat
  exact h.behind (Cursor.suffix_of_eat? hc) rfl

theorem eatKeyword (h : s.Run admitted base opened held) {word : String} (heat : s.eatKeyword? word = some s') :
    s'.Run admitted base opened held := by
  obtain ⟨c, hc, rfl⟩ := Option.map_eq_some_iff.mp heat
  exact h.behind (Cursor.suffix_of_eatKeyword? hc) rfl

theorem skip (h : s.Run admitted base opened held) (mark : String) : (s.skip mark).Run admitted base opened held := by
  rw [Reading.skip]
  cases heat : s.eat? mark with
  | none => exact h
  | some behind => exact h.eat heat

theorem skipGroupAt (h : s.Run admitted base opened held) (opener : String) :
    (s.skipGroupAt opener).Run admitted base opened held := by
  rw [Reading.skipGroupAt]
  split
  · exact h.skipGroup
  · exact h

theorem type (h : s.Run admitted base opened held) {isVar : Bool} (htype : s.type? = some (isVar, s')) :
    s'.Run admitted base opened held := by
  obtain ⟨⟨found, c⟩, hc, heq⟩ := Option.map_eq_some_iff.mp htype
  cases heq
  exact h.behind (Cursor.suffix_of_type? hc) rfl

/-- Names that a reader of cursors has consumed are held. -/
theorem consume (h : s.Run admitted base opened held) {names : List Token} {c : Cursor}
    (hbehind : s.cursor.before <:+ c.before)
    (hread : ∀ {consumed : List Token}, s.cursor.Covers consumed → c.Covers (names ++ consumed)) :
    Run admitted base opened (names ++ held) { s with cursor := c } := by
  refine h.read (fun {consumed} hcovers => ?_) hbehind rfl
  rw [List.append_assoc]
  exact hread hcovers

/-- A name that was read is held. -/
theorem name (h : s.Run admitted base opened held) (hname : s.name? = some (t, s')) :
    s'.Run admitted base opened (t :: held) := by
  obtain ⟨⟨u, c⟩, hc, heq⟩ := Option.map_eq_some_iff.mp hname
  cases heq
  have hread {consumed : List Token} (h : s.cursor.Covers consumed) : c.Covers ([t] ++ consumed) := h.name? hc
  exact h.consume (Cursor.before_of_name? hc ▸ List.suffix_cons _ _) hread

/-! ### Defects and scopes -/

theorem stall (h : s.Run admitted base opened held) : s.stall.Run admitted base opened held :=
  h.behind List.suffix_rfl rfl

theorem reportAt (h : s.Run admitted base opened held) (position : Position) (defect : Defect) :
    (s.reportAt position defect).Run admitted base opened held :=
  h.behind List.suffix_rfl rfl

theorem report (h : s.Run admitted base opened held) (defect : Defect) :
    (s.report defect).Run admitted base opened held := h.reportAt _ defect

theorem require (h : s.Run admitted base opened held) (mark : String) (defect : Defect) :
    (s.require mark defect).Run admitted base opened held := by
  rw [Reading.require]
  cases heat : s.eat? mark with
  | none => exact h.report defect
  | some behind => exact h.eat heat

theorem openScope (h : s.Run admitted base opened held) (kind : ScopeKind) (name : Option String) (parent : ScopeId) :
    (s.openScope kind name parent).2.Run admitted base opened held := h.addScope kind name none parent

theorem openType (h : s.Run admitted base opened held) (kind : TypeKind) (name : String) (parent : ScopeId) :
    (s.openType kind name parent).2.Run admitted base opened held := h.addScope .typeBody (some name) (some kind) parent

/-! ### Loops and recovery -/

theorem progress {read : Reading → Reading} (hread : (read s).Run admitted base opened held) :
    (s.progress read).Run admitted base opened held := by
  rw [Reading.progress]
  split
  · split
    · exact (hread.report _).next
    · exact hread.next
  · exact hread

theorem recoverRound (h : s.Run admitted base opened held) :
    (Reading.recoverRound s).All (Run admitted base opened held) (Run admitted base opened held) := by
  rw [Reading.recoverRound]
  split
  · exact h
  · split
    · exact h.next
    · split
      · exact h
      · split
        · exact h.skipGroup
        · split
          · exact h.skipGroup
          · exact h.next

theorem recover (h : s.Run admitted base opened held) : s.recover.Run admitted base opened held :=
  rounds_all recoverRound stall h

end Reading.Run

/-- Steps lead from the stage `base` to the end of an attempt. -/
def Attempt.Run (admitted : Declaration → Prop) (base : Stage) (opened : List DeclaratorGroup) (held : List Token) :
    Attempt → Prop
  | complete s => s.Run admitted base opened held
  | malformed s => s.Run admitted base opened held

theorem Attempt.Run.settle {admitted : Declaration → Prop} {base : Stage} {opened : List DeclaratorGroup}
    {held : List Token} {a : Attempt} (h : a.Run admitted base opened held) :
    a.settle.Run admitted base opened held := by
  cases a with
  | complete s => exact h
  | malformed s => exact Reading.Run.recover h

end CSharpStyle
