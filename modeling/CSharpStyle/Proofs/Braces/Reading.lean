import CSharpStyle.Proofs.Braces.Depth
import CSharpStyle.Proofs.Recording.Reading
import Mathlib.Data.List.TakeWhile

/-!
# Braces and defects

As long as nothing was reported, a reading stands where its reader takes it to stand: in a body, with no further brace
opened, or behind the brace that closes it. Once something was reported nothing more is said, and nothing needs to be.

* `Reading.Level floor s`: the reading stands in the body `floor`, unless something was reported.
* `Reading.Stands.enter`, `Reading.Level.leave`: into the body behind a brace and out of it again.
* `Reading.Reported.recover`: a report is not lost.
-/

namespace CSharpStyle

namespace Token

variable {t : Token}

theorem not_isBrace_of_isPunctuation {mark : String} (h : t.isPunctuation mark = true)
    (hmark : mark ∉ ["\x7b", "\x7d"]) : t.isBrace = false := by
  simp only [List.mem_cons, List.not_mem_nil, or_false, not_or] at hmark
  rw [isBrace, isPunctuation_of_ne h hmark.1, isPunctuation_of_ne h hmark.2]
  rfl

theorem not_isBrace_of_kind (h : t.kind ≠ .punctuation) : t.isBrace = false :=
  not_isBrace_of_not_isWall (not_isWall_of_kind h)

theorem not_isBrace_of_isKeyword {word : String} (h : t.isKeyword word = true) : t.isBrace = false :=
  not_isBrace_of_not_isWall (not_isWall_of_isKeyword h)

theorem not_isBrace_of_isName (h : t.isName = true) : t.isBrace = false :=
  not_isBrace_of_not_isWall (not_isWall_of_isName h)

end Token

/-- The last consumed token, if there is one, ends a declaration or statement. -/
def Cursor.isBehindItem (c : Cursor) : Bool :=
  c.before.head?.all fun t => t.isPunctuation ";" || t.isPunctuation "\x7d"

namespace Reading

variable {pending : List String} {floor : Floor} {s s' : Reading} {t : Token}

/-- Something was reported, or reading would not have come to an end. -/
def Reported (s : Reading) : Prop := s.errors ≠ #[] ∨ s.stalled = true

/-- The reading stands behind the brackets that `pending` closes, unless something was reported. -/
def Stands (pending : List String) (s : Reading) : Prop :=
  s.Reported ∨ s.cursor.Stands pending

/-- The reading stands in the body, unless something was reported. -/
def Level (floor : Floor) (s : Reading) : Prop := s.Reported ∨ s.cursor.Level floor

/-- The reading stands behind the last token of a declaration or statement, unless something was reported. -/
def Closed (pending : List String) (s : Reading) : Prop :=
  s.Reported ∨ s.cursor.Stands pending ∧ s.cursor.isBehindItem = true

/-- The reading stands in the body behind a declaration or statement, unless something was reported. -/
def Ended (floor : Floor) (s : Reading) : Prop :=
  ∃ inner, "\x7d" ∉ inner ∧ s.Closed (inner ++ floor.closers)

/-! ### Reports -/

namespace Reported

theorem reportAt (s : Reading) (position : Position) (defect : Defect) : (s.reportAt position defect).Reported :=
  .inl (by simp [Reading.reportAt])

theorem report (s : Reading) (defect : Defect) : (s.report defect).Reported := reportAt s _ defect

theorem stall (s : Reading) : s.stall.Reported := .inr rfl

theorem move (h : s.Reported) (f : Cursor → Cursor) : (s.move f).Reported := h

theorem next (h : s.Reported) : s.next.Reported := h

theorem recoverRound (h : s.Reported) : (Reading.recoverRound s).All Reported Reported := by
  rw [Reading.recoverRound]
  split
  · exact h
  · split
    · exact h.next
    · split
      · exact h
      · split
        · exact h.move _
        · split
          · exact h.move _
          · exact h.next

theorem recover (h : s.Reported) : s.recover.Reported := rounds_all recoverRound (fun _ => stall _) h

theorem level (h : s.Reported) : s.Level floor := .inl h

theorem closed (h : s.Reported) : s.Closed pending := .inl h

theorem ended (h : s.Reported) : s.Ended floor := ⟨[], List.not_mem_nil, h.closed⟩

end Reported

theorem report_recover (s : Reading) (defect : Defect) : (s.report defect).recover.Reported :=
  (Reported.report s defect).recover

/-- What could not be read further is reported, unless nothing is ahead. -/
theorem progress_cases (read : Reading → Reading) (s : Reading) :
    s.progress read = read s ∨ (s.progress read).Reported ∨
      s.peek? = none ∧ (read s).peek? = none ∧ s.progress read = (read s).next := by
  rw [progress]
  by_cases hstill : s.cursor.isStill (read s).cursor = true
  · rw [if_pos hstill]
    have hpeek : (read s).peek? = s.peek? := by
      rw [Cursor.isStill, Bool.and_eq_true, beq_iff_eq] at hstill
      exact hstill.1
    cases ht : s.peek? with
    | none => exact .inr (.inr ⟨rfl, hpeek.trans ht, rfl⟩)
    | some t => exact .inr (.inl (Reported.report _ _).next)
  · rw [if_neg hstill]
    exact .inl rfl

/-- A mark that was eaten was the next token. -/
theorem eq_next_of_eat {mark : String} (heat : s.eat? mark = some s') : s.sees mark = true ∧ s' = s.next := by
  obtain ⟨c, hc, rfl⟩ := Option.map_eq_some_iff.mp heat
  obtain ⟨hsees, hnext⟩ := Option.ite_none_right_eq_some.mp hc
  cases hnext
  exact ⟨hsees, rfl⟩

/-! ### Into bodies and out of them -/

theorem Stands.enter (h : s.Stands pending) (hsees : s.sees "\x7b" = true) :
    s.next.Level (.inside pending) := by
  refine h.imp Reported.next fun hstands => .of_stands ?_
  obtain ⟨t, ht, hbrace⟩ := Cursor.exists_of_sees hsees
  have hopen := Token.isOpener_of_brace hbrace
  have hnext := hstands.next ht fun hclose => absurd hclose (Token.not_closing_of_isOpener hopen)
  rwa [Token.awaited_of_isOpener hopen, (Token.eq_of_isPunctuation hbrace).2] at hnext

/-- Where something is ahead, the brackets are known. -/
theorem Level.stands (h : s.Level floor) (hpeek : s.peek? = some t) :
    ∃ inner, "\x7d" ∉ inner ∧ s.Stands (inner ++ floor.closers) := by
  rcases h with hreported | hlevel
  · exact ⟨[], List.not_mem_nil, .inl hreported⟩
  · obtain ⟨inner, hinner, hstands⟩ := hlevel.stands hpeek
    exact ⟨inner, hinner, .inr hstands⟩

theorem Level.leave (h : s.Level (.inside pending)) (hpeek : s.peek? = some t)
    (hbrace : t.isPunctuation "\x7d" = true) : s.next.Closed pending := by
  refine h.imp Reported.next fun hlevel => ?_
  obtain ⟨inner, hinner, hstands⟩ := hlevel.stands hpeek
  have hclose := Token.isCloser_of_brace hbrace
  have hfits := hstands.fits hpeek
  have hnext := hstands.next hpeek fun _ => by simp [Floor.closers]
  rw [Token.awaited_of_isCloser hclose] at hnext
  have hbehind : s.next.cursor.isBehindItem = true := by
    rw [Cursor.isBehindItem, show s.next.cursor.before = t :: s.cursor.before from Cursor.before_next hpeek]
    simp [hbrace]
  cases inner with
  | nil => exact ⟨hnext, hbehind⟩
  | cons closer inner =>
    have hhead := Token.head_of_isCloser hfits hclose
    rw [(Token.eq_of_isPunctuation hbrace).2] at hhead
    exact absurd (List.mem_cons.mpr (.inl hhead.symm)) hinner

theorem Stands.level {inner : List String} (h : s.Stands (inner ++ floor.closers)) (hinner : "\x7d" ∉ inner) :
    s.Level floor := h.imp_right fun hstands => .inl ⟨inner, hinner, hstands⟩

theorem Closed.stands (h : s.Closed pending) : s.Stands pending := h.imp_right And.left

theorem Ended.level (h : s.Ended floor) : s.Level floor := by
  obtain ⟨inner, hinner, hclosed⟩ := h
  exact hclosed.stands.level hinner

/-! ### Tokens other than braces -/

theorem Stands.next (h : s.Stands pending) (hpeek : s.peek? = some t)
    (hopen : t.isPunctuation "\x7d" = true → pending ≠ []) : s.next.Stands (t.awaited pending) :=
  h.imp Reported.next fun hstands => hstands.next hpeek hopen

/-- A semicolon ends a declaration. -/
theorem Stands.eat_semicolon (h : s.Stands pending) (heat : s.eat? ";" = some s') :
    s'.Closed pending := by
  obtain ⟨hsees, rfl⟩ := eq_next_of_eat heat
  obtain ⟨t, ht, hmark⟩ := Cursor.exists_of_sees hsees
  refine h.imp Reported.next fun hstands => ?_
  have hopen : t.isOpener = false := Bool.eq_false_iff.mpr fun hopen => by
    rcases Token.isOpener_cases hopen with h | h | h <;> rw [Token.isPunctuation_of_ne hmark (by decide)] at h <;> cases h
  have hclose : t.isCloser = false := Bool.eq_false_iff.mpr fun hclose => by
    rcases Token.isCloser_cases hclose with h | h | h <;> rw [Token.isPunctuation_of_ne hmark (by decide)] at h <;> cases h
  have hnext := hstands.next ht fun hbrace => by
    rw [Token.isPunctuation_of_ne hmark (by decide)] at hbrace
    cases hbrace
  rw [Token.awaited_of_other hopen hclose] at hnext
  refine ⟨hnext, ?_⟩
  rw [Cursor.isBehindItem, show s.next.cursor.before = t :: s.cursor.before from Cursor.before_next ht]
  simp [hmark]

theorem Closed.skip_semicolon (h : s.Closed pending) : (s.skip ";").Closed pending := by
  rw [Reading.skip]
  cases heat : s.eat? ";" with
  | none => exact h
  | some behind => exact h.stands.eat_semicolon heat

theorem Level.eat_semicolon (h : s.Level floor) (heat : s.eat? ";" = some s') : s'.Ended floor := by
  obtain ⟨t, ht, -⟩ := Cursor.exists_of_sees (eq_next_of_eat heat).1
  obtain ⟨inner, hinner, hstands⟩ := h.stands ht
  exact ⟨inner, hinner, hstands.eat_semicolon heat⟩

theorem Level.require_semicolon (h : s.Level floor) (defect : Defect) :
    (s.require ";" defect).Ended floor := by
  rw [Reading.require]
  cases heat : s.eat? ";" with
  | none => exact (Reported.report _ _).ended
  | some behind => exact h.eat_semicolon heat

namespace Level

theorem move {f : Cursor → Cursor} (h : s.Level floor)
    (hf : s.cursor.Level floor → (f s.cursor).Level floor) : (s.move f).Level floor :=
  h.imp (Reported.move · f) hf

theorem next (h : s.Level floor) (hpeek : s.peek? = some t) (hbrace : t.isBrace = false) :
    s.next.Level floor :=
  h.move fun hlevel => hlevel.next (by rw [show s.cursor.peek? = some t from hpeek]; exact hbrace)

theorem next_of_end (h : s.Level floor) (hpeek : s.peek? = none) : s.next.Level floor :=
  h.move fun hlevel => hlevel.next (by rw [show s.cursor.peek? = none from hpeek]; rfl)

theorem next_of_sees {mark : String} (h : s.Level floor) (hsees : s.sees mark = true)
    (hmark : mark ∉ ["\x7b", "\x7d"]) : s.next.Level floor := by
  obtain ⟨t, ht, htmark⟩ := Cursor.exists_of_sees hsees
  exact h.next ht (Token.not_isBrace_of_isPunctuation htmark hmark)

theorem next_of_seesKeyword {word : String} (h : s.Level floor) (hsees : s.seesKeyword word = true) :
    s.next.Level floor := by
  obtain ⟨t, ht, hword⟩ := (Option.any_eq_true _ _).mp hsees
  exact h.next ht (Token.not_isBrace_of_isKeyword hword)

theorem eat {mark : String} (h : s.Level floor) (heat : s.eat? mark = some s')
    (hmark : mark ∉ ["\x7b", "\x7d"]) : s'.Level floor := by
  obtain ⟨hsees, rfl⟩ := eq_next_of_eat heat
  exact h.next_of_sees hsees hmark

theorem eatKeyword {word : String} (h : s.Level floor) (heat : s.eatKeyword? word = some s') :
    s'.Level floor := by
  obtain ⟨c, hc, rfl⟩ := Option.map_eq_some_iff.mp heat
  obtain ⟨hsees, hnext⟩ := Option.ite_none_right_eq_some.mp hc
  cases hnext
  exact h.next_of_seesKeyword hsees

theorem skip {mark : String} (h : s.Level floor) (hmark : mark ∉ ["\x7b", "\x7d"]) :
    (s.skip mark).Level floor := by
  rw [Reading.skip]
  cases heat : s.eat? mark with
  | none => exact h
  | some behind => exact h.eat heat hmark

theorem require {mark : String} (h : s.Level floor) (hmark : mark ∉ ["\x7b", "\x7d"]) (defect : Defect) :
    (s.require mark defect).Level floor := by
  rw [Reading.require]
  cases heat : s.eat? mark with
  | none => exact (Reported.report _ _).level
  | some behind => exact h.eat heat hmark

theorem skipGroupAt {opener : String} (h : s.Level floor) (hopener : opener ∈ ["(", "["]) :
    (s.skipGroupAt opener).Level floor := by
  rw [Reading.skipGroupAt]
  split
  · rename_i hsees
    refine h.move fun hlevel => hlevel.skipGroup ?_
    obtain ⟨t, ht, hmark⟩ := Cursor.exists_of_sees hsees
    obtain ⟨hkind, htext⟩ := Token.eq_of_isPunctuation hmark
    rw [ht, Option.any_some, Token.isOpener, hkind, htext]
    revert opener
    simp
  · exact h

theorem name (h : s.Level floor) (hname : s.name? = some (t, s')) : s'.Level floor := by
  obtain ⟨⟨u, c⟩, hc, heq⟩ := Option.map_eq_some_iff.mp hname
  cases heq
  rw [Cursor.name?] at hc
  split at hc
  · obtain ⟨hisName, heq⟩ := Option.ite_none_right_eq_some.mp hc
    cases heq
    exact h.next ‹_› (Token.not_isBrace_of_isName hisName)
  · cases hc

theorem type {isVar : Bool} (h : s.Level floor) (htype : s.type? = some (isVar, s')) :
    s'.Level floor := by
  obtain ⟨⟨found, c⟩, hc, heq⟩ := Option.map_eq_some_iff.mp htype
  cases heq
  exact h.imp_right fun hlevel => (Cursor.lockstep_level floor).keeps_type? hlevel hc

theorem header (h : s.Level floor) : s.header.2.Level floor :=
  h.imp_right fun hlevel => ((Cursor.lockstep_level floor).read ⟨rfl, hlevel⟩).2.2

theorem skipAttributes (h : s.Level floor) : (s.move .skipAttributes).Level floor :=
  h.move fun hlevel => ((Cursor.lockstep_level floor).skipAttributes ⟨rfl, hlevel⟩).2

theorem skipKeyword (h : s.Level floor) (word : String) : (s.move (·.skipKeyword word)).Level floor :=
  h.move fun hlevel => ((Cursor.lockstep_level floor).skipKeyword ⟨rfl, hlevel⟩ word).2

theorem skipEither (h : s.Level floor) (word other : String) :
    (s.move (·.skipEither word other)).Level floor :=
  h.move fun hlevel => ((Cursor.lockstep_level floor).skipEither ⟨rfl, hlevel⟩ word other).2

theorem skipUntil {stop : Token → Bool} (h : s.Level floor)
    (hstop : ∀ {t u : Token}, t.Alike u → stop t = stop u) (hwall : ∀ {t : Token}, t.isWall → stop t) :
    (s.move (.skipUntil stop)).Level floor :=
  h.move fun hlevel => ((Cursor.lockstep_level floor).skipUntil ⟨rfl, hlevel⟩ hstop hwall).2

/-- Tokens that are no braces are skipped. -/
theorem skipWhile {p : Token → Bool} (h : s.Level floor)
    (hbraces : (s.ahead.takeWhile p).all (!·.isBrace) = true) : (s.move (.skipWhile p)).Level floor :=
  h.move fun hlevel => hlevel.skipWhile hbraces

theorem skipWhile_of_forall {p : Token → Bool} (h : s.Level floor)
    (hp : ∀ {t : Token}, p t = true → t.isBrace = false) : (s.move (.skipWhile p)).Level floor := by
  refine h.skipWhile (List.all_eq_true.mpr fun t ht => ?_)
  rw [hp (List.mem_takeWhile_imp ht)]
  rfl

theorem openScope (h : s.Level floor) (kind : ScopeKind) (name : Option String) (parent : ScopeId) :
    (s.openScope kind name parent).2.Level floor := h

theorem openType (h : s.Level floor) (kind : TypeKind) (name : String) (parent : ScopeId) :
    (s.openType kind name parent).2.Level floor := h

theorem newGroup (h : s.Level floor) : s.newGroup.2.Level floor := h

theorem progress {read : Reading → Reading} (hread : (read s).Level floor) :
    (s.progress read).Level floor := by
  rcases progress_cases read s with heq | hreported | ⟨-, hend, heq⟩
  · rwa [heq]
  · exact hreported.level
  · rw [heq]
    exact hread.next_of_end hend

end Level

end Reading

/-- The member was read to its end in the body, or found malformed and reported. -/
def Attempt.Level (floor : Floor) : Attempt → Prop
  | complete s => s.Level floor
  | malformed s => s.Reported

theorem Attempt.Level.settle {floor : Floor} {a : Attempt} (h : a.Level floor) :
    a.settle.Level floor := by
  cases a with
  | complete s => exact h
  | malformed s => exact (Reading.Reported.recover h).level

end CSharpStyle
