import CSharpStyle.Proofs.Braces.Member
import CSharpStyle.Proofs.Grammar.Consumption

/-!
# Unbalanced braces are reported

A brace that closes nothing is met where a member of the file should begin, and is reported there. A brace that is
never closed opens a body, which is reported at the end of the file, unless an expression swallows it: outside all
bodies this is an expression of a top-level statement, which may extend to the end of the file.

* `Token.Declarative`: there are no top-level statements.
* `NamespaceBody.stays`, `NamespaceBody.finishes`: what is known when the members of a namespace or file are read.
* `CompilationUnit.errors_ne_nil_of_unbalanced`: braces that are not balanced are reported.
-/

namespace CSharpStyle

namespace Cursor

/-- A using directive, a namespace or a type begins here. -/
def beginsDeclaration (c : Cursor) : Bool :=
  c.seesUsingDirective || c.seesKeyword "namespace" || (Header.read c).2.seesTypeDeclaration

/-- A declaration begins here, or attributes that stand in front of one, or there is a mere semicolon. -/
def startsDeclaration (c : Cursor) : Bool :=
  c.sees ";" || c.beginsDeclaration ||
    ((Header.read c).1.hasAttributes && (Header.read c).1.modifiers = {} && (Header.read c).2.beginsDeclaration)

end Cursor

/-- Where a member of the file may begin, a declaration begins: there are no top-level statements. -/
def Token.Declarative (tokens : List Token) : Prop :=
  ∀ k < tokens.length, Balanced (tokens.take k) →
    Cursor.isBehindItem ⟨(tokens.take k).reverse, tokens.drop k⟩ →
      Cursor.startsDeclaration ⟨(tokens.take k).reverse, tokens.drop k⟩

instance (tokens : List Token) : Decidable (Token.Declarative tokens) := Nat.decidableBallLT _ _

namespace Cursor

variable {c : Cursor} {t : Token}

theorem seesUsingDirective_eq (c : Cursor) : c.seesUsingDirective = seesUsingDirective ⟨[], c.ahead⟩ := by
  obtain ⟨before, _ | ⟨t, _ | ⟨u, ahead⟩⟩⟩ := c
  · rfl
  · cases hglobal : t.isKeyword "global" <;> cases husing : t.isKeyword "using" <;>
      simp [seesUsingDirective, skipKeyword, eatKeyword?, seesKeyword, peek?, next, hglobal, husing]
  · cases hglobal : t.isKeyword "global" <;> cases husing : t.isKeyword "using" <;>
      cases hsecond : u.isKeyword "using" <;>
        simp [seesUsingDirective, skipKeyword, eatKeyword?, seesKeyword, peek?, next, hglobal, husing, hsecond]

theorem ahead_ne_nil_of_beginsDeclaration (h : c.beginsDeclaration = true) : c.ahead ≠ [] := by
  obtain ⟨before, _ | ⟨t, ahead⟩⟩ := c
  · simp [beginsDeclaration, seesUsingDirective, skipKeyword, eatKeyword?, seesKeyword, peek?, Header.read,
      Header.readOn_eq, Header.step?, seesTypeDeclaration] at h
  · exact List.cons_ne_nil _ _

/-- In front of a semicolon there is no header. -/
theorem header_of_semicolon (h : c.sees ";" = true) : Header.read c = ({}, c) := by
  obtain ⟨t, ht, hmark⟩ := exists_of_sees h
  obtain ⟨hkind, htext⟩ := Token.eq_of_isPunctuation hmark
  have hnone : Header.step? {} c = none := by
    simp [Header.step?, ht, Token.isPunctuation, Token.isKeyword, Token.isIdentifier, hkind, htext]
  rw [Header.read, Header.readOn_eq, hnone]

/-- The words `extern alias` are not the header of a type. -/
theorem header_of_alias (h : c.seesKeyword "extern" = true) (halias : c.second?.any (·.text == "alias") = true) :
    Header.read c = ({}, c.next) ∧ c.next.seesTypeDeclaration = false := by
  obtain ⟨before, _ | ⟨t, _ | ⟨u, ahead⟩⟩⟩ := c
  · cases h
  · cases halias
  · obtain ⟨hkind, htext⟩ : t.kind = .keyword ∧ t.text = "extern" := by
      simpa [seesKeyword, peek?, Token.isKeyword] using h
    have halias : u.text = "alias" := by simpa [second?] using halias
    have hextern : Header.step? {} ⟨before, t :: u :: ahead⟩ = some ({}, ⟨t :: before, u :: ahead⟩) := by
      have hmodifier : ({} : Modifiers).add? "extern" = some {} := by decide
      simp [Header.step?, peek?, next, Token.isPunctuation, Token.isKeyword, hkind, htext, hmodifier]
    have hnone : Header.step? {} ⟨t :: before, u :: ahead⟩ = none := by
      have hmodifier : ({} : Modifiers).add? "alias" = none := by decide
      simp [Header.step?, peek?, Token.isPunctuation, Token.isKeyword, Token.isIdentifier, halias, hmodifier]
    constructor
    · rw [Header.read, Header.readOn_eq, hextern]
      simp only
      rw [Header.readOn_eq, hnone]
      rfl
    · simp [seesTypeDeclaration, peek?, next, halias]

end Cursor

/-- Where reading a body ends: behind its closing brace, or at the end of the file. -/
def Floor.Left : Floor → Reading → Prop
  | file, s => s.Level .file
  | inside outer, s => s.Closed outer

/-- The body has to be closed if it stands in braces. -/
def Floor.Fits (floor : Floor) (body : NamespaceBody) : Prop :=
  match floor with
  | file => body.opening = none
  | inside _ => body.opening.isSome = true

/-- The members of a namespace are read to the end of the body. -/
structure NamespaceReader.Stays (members : NamespaceReader) : Prop where
  read {floor : Floor} {s : Reading} (h : s.Level floor) {body : NamespaceBody} (hbody : floor.Fits body) :
    floor.Left (members body s)

namespace Reading

variable {floor : Floor} {s s' : Reading} {t : Token}

theorem Reported.left (h : s.Reported) : floor.Left s := by
  cases floor with
  | file => exact h.level
  | inside outer => exact h.closed

/-! ### Directives -/

/-- The reading stands in a directive in the body, and no brace opens in what remains of it. -/
def InDirective (floor : Floor) (s : Reading) : Prop :=
  s.Reported ∨ s.cursor.Level floor ∧ Token.opensNone s.ahead = true

theorem Level.inDirective (h : s.Level floor) (hpeek : s.peek? = some t)
    (hsees : s.cursor.seesUsingDirective = true) : s.InDirective floor := by
  refine h.imp_right fun hlevel => ⟨hlevel, ?_⟩
  obtain ⟨inner, -, hstands⟩ := hlevel.stands hpeek
  obtain ⟨⟨before, _ | ⟨u, ahead⟩⟩, outline, errors, stalled⟩ := s
  · cases hpeek
  · have hplain := (Token.isOrderly_cons hstands.orderly).2.1
    rw [Cursor.seesUsingDirective_eq] at hsees
    rw [Token.isPlain, hsees, Bool.and_eq_true] at hplain
    exact hplain.2

namespace InDirective

theorem next (h : s.InDirective floor) (hpeek : s.peek? = some t) (hwall : t.isWall = false) :
    s.next.InDirective floor := by
  refine h.imp Reported.next fun ⟨hlevel, hnone⟩ => ⟨hlevel.next ?_, ?_⟩
  · rw [show s.cursor.peek? = some t from hpeek]
    exact Token.not_isBrace_of_not_isWall hwall
  · obtain ⟨⟨before, _ | ⟨u, ahead⟩⟩, outline, errors, stalled⟩ := s
    · cases hpeek
    · cases hpeek
      exact Token.opensNone_of_cons hnone hwall

theorem skipKeyword (h : s.InDirective floor) (word : String) :
    (s.move (·.skipKeyword word)).InDirective floor := by
  cases hsees : s.cursor.seesKeyword word with
  | false =>
    rw [Reading.move, Cursor.skipKeyword, Cursor.eatKeyword?, hsees]
    exact h
  | true =>
    obtain ⟨t, ht, hword⟩ := (Option.any_eq_true _ _).mp hsees
    rw [Reading.move, Cursor.skipKeyword, Cursor.eatKeyword?, hsees]
    exact h.next ht (Token.not_isWall_of_isKeyword hword)

theorem aliasName (h : s.InDirective floor) : s.aliasName.2.InDirective floor := by
  rw [Reading.aliasName]
  split
  · rename_i name behind hname
    split
    · rename_i target heat
      obtain ⟨⟨u, c⟩, hc, heq⟩ := Option.map_eq_some_iff.mp hname
      cases heq
      rw [Cursor.name?] at hc
      split at hc
      · rename_i hpeek
        obtain ⟨hisName, heq⟩ := Option.ite_none_right_eq_some.mp hc
        cases heq
        obtain ⟨hsees, rfl⟩ := eq_next_of_eat heat
        obtain ⟨sign, hsign, hmark⟩ := Cursor.exists_of_sees hsees
        have hbehind := h.next hpeek (Token.not_isWall_of_isName hisName)
        exact hbehind.next hsign (Token.not_isWall_of_isPunctuation hmark (by decide))
      · cases hc
    · exact h
  · exact h

/-- The text of a directive is skipped without a brace. -/
theorem takeText (h : s.InDirective floor) :
    (s.takeText fun t => !(t.isPunctuation ";" || t.isPunctuation "\x7d")).2.Level floor := by
  refine h.imp (Reported.move · _) fun ⟨hlevel, hnone⟩ => hlevel.skipWhile (List.all_eq_true.mpr fun t ht => ?_)
  have hgo := List.mem_takeWhile_imp ht
  have hopen := List.all_eq_true.mp hnone t ht
  rw [Bool.not_eq_true', Bool.or_eq_false_iff] at hgo
  rw [Bool.not_eq_true'] at hopen
  rw [Token.isBrace, hopen, hgo.2]
  rfl

end InDirective

/-- The scope of a namespace, and the reading behind its name. -/
def namespaceName (body : NamespaceBody) (s : Reading) : ScopeId × Reading :=
  let (name, s) := s.next.takeText fun t => t.isName || t.isPunctuation "." || t.isPunctuation "::"
  s.openScope .namespaceBody (some name) body.scope

/-- Behind the name of a namespace there is a semicolon or a brace, or something is reported. -/
theorem namespaceDeclaration_cases (members : NamespaceReader) (body : NamespaceBody) (s : Reading) :
    (∃ r, r.Reported ∧ namespaceDeclaration members body s = .again r) ∨
    (∃ behind, (namespaceName body s).2.eat? ";" = some behind ∧
      namespaceDeclaration members body s =
        .done (members ⟨(namespaceName body s).1, true, body.opening⟩ behind)) ∨
    ∃ inside, (namespaceName body s).2.eat? "\x7b" = some inside ∧
      namespaceDeclaration members body s =
        .again (members ⟨(namespaceName body s).1, true, some (namespaceName body s).2.position⟩ inside) := by
  simp only [namespaceDeclaration]
  split
  · exact .inl ⟨_, report_recover _ _, rfl⟩
  · split
    · exact .inr (.inl ⟨_, ‹_›, rfl⟩)
    · split
      · exact .inr (.inr ⟨_, ‹_›, rfl⟩)
      · exact .inl ⟨_, report_recover _ _, rfl⟩

/-- The name of a namespace and the mark behind it were consumed. -/
theorem Sound.namespaceName {tokens : List Token} (h : s.Sound tokens fun _ => True) (hne : s.cursor.ahead ≠ [])
    (body : NamespaceBody) {mark : String} (heat : (namespaceName body s).2.eat? mark = some s') :
    s'.Sound tokens (fun _ => True) ∧ s'.size < s.size := by
  have hnext := (h.related fun _ => id).next hne
  obtain ⟨-, htext⟩ := hnext.leads.related.takeText
    (p := fun t => t.isName || t.isPunctuation "." || t.isPunctuation "::")
    fun hab => by rw [hab.isName, hab.isPunctuation, hab.isPunctuation]
  have hopen := hnext.trans (htext.trans (htext.related.openScope (rfl : body.scope = _) .namespaceBody
    (some (s.next.takeText fun t => t.isName || t.isPunctuation "." || t.isPunctuation "::").1) (by decide)).1)
  rcases hopen.leads.related.eat_cases mark with ⟨hnone, -⟩ | ⟨behind, again, hbehind, -, hmark⟩
  · exact absurd (hnone.symm.trans heat) (by simp)
  · cases Option.some.inj (hbehind.symm.trans heat)
    have hconsumed := hopen.trans hmark.leads
    exact ⟨sound_of_related hconsumed.leads.related, hconsumed.size_lt⟩

namespace Level

/-- A directive ends with its semicolon. -/
theorem usingDirective (h : s.Level floor) (hpeek : s.peek? = some t)
    (hsees : s.cursor.seesUsingDirective = true) (body : NamespaceBody) :
    (Reading.usingDirective body s).Ended floor := by
  have hkeywords := ((h.inDirective hpeek hsees).skipKeyword "global").skipKeyword "using"
  have htarget := (hkeywords.skipKeyword "static").aliasName.takeText
  exact htarget.require_semicolon (.expected "';' after using directive")

/-! ### Namespaces -/

theorem namespaceName (h : s.next.Level floor) (body : NamespaceBody) : (namespaceName body s).2.Level floor := by
  refine h.skipWhile_of_forall fun {t} ht => ?_
  rcases Bool.or_eq_true_iff.mp ht with ht | hmark
  · rcases Bool.or_eq_true_iff.mp ht with hname | hmark
    · exact Token.not_isBrace_of_isName hname
    · exact Token.not_isBrace_of_isPunctuation hmark (by decide)
  · exact Token.not_isBrace_of_isPunctuation hmark (by decide)

theorem typeOrStatement (h : s.Level floor) (scope : ScopeId) :
    (Reading.typeOrStatement scope s).Level floor := by
  rw [Reading.typeOrStatement]
  simp only
  split
  · exact (TypeDeclaration.stays.read h.header ‹_› scope _).level
  · split
    · exact h.header
    · exact Statement.stays.read h scope

section Namespaces

variable {members : NamespaceReader} (hmembers : members.Stays)
include hmembers

/-- A namespace in braces ends behind them. -/
theorem namespaceBlock (h : s.Level floor) (heat : s.eat? "\x7b" = some s') (scope : ScopeId) (opening : Position) :
    (members ⟨scope, true, some opening⟩ s').Ended floor := by
  obtain ⟨hsees, rfl⟩ := eq_next_of_eat heat
  obtain ⟨t, ht, -⟩ := Cursor.exists_of_sees hsees
  obtain ⟨inner, hinner, hstands⟩ := h.stands ht
  have hinside := hstands.enter hsees
  exact ⟨inner, hinner, hmembers.read hinside rfl⟩

/-- A namespace without braces ends where the body around it ends. -/
theorem namespaceDeclaration (h : s.next.Level floor) {body : NamespaceBody} (hbody : floor.Fits body) :
    (Reading.namespaceDeclaration members body s).All (Level floor) floor.Left := by
  have hname := h.namespaceName body
  rcases namespaceDeclaration_cases members body s with
    ⟨r, hreported, heq⟩ | ⟨behind, heat, heq⟩ | ⟨inside, heat, heq⟩
  · rw [heq]
    exact hreported.level
  · rw [heq]
    refine hmembers.read (hname.eat heat (by decide)) ?_
    cases floor <;> exact hbody
  · rw [heq]
    exact (hname.namespaceBlock hmembers heat _ _).level

theorem namespaceRound (h : s.Level floor) {body : NamespaceBody} (hbody : floor.Fits body) :
    (Reading.namespaceRound members body s).All (Level floor) (floor.Left) := by
  rw [Reading.namespaceRound]
  split
  · cases floor with
    | file =>
      rw [show body.opening = none from hbody]
      exact h
    | inside outer =>
      obtain ⟨opening, hopening⟩ := Option.isSome_iff_exists.mp hbody
      simp only [hopening]
      exact (Reported.reportAt _ _ _).closed
  · rename_i t hpeek
    split
    · rename_i hbrace
      cases floor with
      | file =>
        rw [show body.opening = none from hbody]
        exact (Reported.report _ _).next.level
      | inside outer =>
        rw [show body.opening.isSome = true from hbody]
        exact h.leave hpeek hbrace
    · split
      · exact (h.usingDirective hpeek ‹_› body).level
      · split
        · rename_i hword
          exact (h.next hpeek (Token.not_isBrace_of_isKeyword hword)).namespaceDeclaration hmembers hbody
        · split
          · exact h.statementEnd body.scope
          · exact progress (h.typeOrStatement body.scope)

end Namespaces

end Level

end Reading

/-- Namespaces stay in their body. The induction is on the tokens ahead: a namespace inside another one has fewer. -/
theorem NamespaceBody.stays : NamespaceReader.Stays NamespaceBody.read where
  read {floor s} h body hbody := by
    induction hsize : s.size using Nat.strongRecOn generalizing floor s body with
    | ind n ih =>
      rw [NamespaceBody.read]
      refine rounds_all (fun h => h.namespaceRound ⟨fun {floor t} ht inner hinner => ?_⟩ hbody)
        (fun _ => (Reading.Reported.stall _).left) h
      by_cases hlt : t.size < s.size
      · rw [if_pos hlt]
        exact ih t.size (hsize ▸ hlt) ht inner hinner rfl
      · rw [if_neg hlt]
        exact (Reading.Reported.stall t).left

/-! ### Files without top-level statements -/

/-- A mere semicolon is a statement. -/
theorem Statement.read_of_semicolon {s : Reading} {scope : ScopeId} (h : s.sees ";" = true) :
    Statement.read scope s = s.next := by
  obtain ⟨t, ht, hmark⟩ := Cursor.exists_of_sees h
  obtain ⟨hkind, htext⟩ := Token.eq_of_isPunctuation hmark
  rw [Statement.read, Reading.statementAt, show s.peek? = some t from ht]
  simp [hkind, htext]

namespace Reading

variable {tokens : List Token} {s s' : Reading} {t : Token}

/-- All braces are closed, and a member of the file may begin here or a declaration does. -/
def Ready (s : Reading) : Prop :=
  ∃ inner, "\x7d" ∉ inner ∧ s.cursor.Stands inner ∧
    (s.cursor.isBehindItem = true ∨ s.cursor.beginsDeclaration = true)

/-- All braces of what was consumed are closed, unless something was reported. -/
def Finished (s : Reading) : Prop := s.Reported ∨ Token.Balanced s.cursor.before.reverse

theorem Ended.ready (h : s.Ended .file) : s.Reported ∨ s.Ready := by
  obtain ⟨inner, hinner, hclosed⟩ := h
  rw [Floor.closers, List.append_nil] at hclosed
  rcases hclosed with hreported | ⟨hstands, hbehind⟩
  · exact .inl hreported
  · exact .inr ⟨inner, hinner, hstands, .inl hbehind⟩

namespace Ready

theorem level (h : s.Ready) : s.Level .file := by
  obtain ⟨inner, hinner, hstands, -⟩ := h
  exact .inr (.inl ⟨inner, hinner, by rwa [Floor.closers, List.append_nil]⟩)

theorem balanced (h : s.Ready) : Token.Balanced s.cursor.before.reverse := by
  obtain ⟨inner, hinner, hstands, -⟩ := h
  rw [Token.Balanced, hstands.depth, List.count_eq_zero_of_not_mem hinner]

/-- Where nothing but declarations may begin, one begins. -/
theorem startsDeclaration (h : s.Ready) (hdeclarative : Token.Declarative tokens) (hover : s.cursor.Over tokens)
    (hne : s.cursor.ahead ≠ []) : s.cursor.startsDeclaration = true := by
  have hbalanced := h.balanced
  obtain ⟨-, -, -, hbehind | hbegins⟩ := h
  · have htake : tokens.take s.cursor.before.length = s.cursor.before.reverse := by
      rw [← hover, ← List.length_reverse, List.take_left]
    have hdrop : tokens.drop s.cursor.before.length = s.cursor.ahead := by
      rw [← hover, ← List.length_reverse, List.drop_left]
    have hlt : s.cursor.before.length < tokens.length := by
      rw [← hover, List.length_append, List.length_reverse]
      have := List.length_pos_iff.mpr hne
      omega
    have hmember := hdeclarative _ hlt
    rw [htake, hdrop, List.reverse_reverse] at hmember
    exact hmember hbalanced hbehind
  · rw [Cursor.startsDeclaration, hbegins, Bool.or_true]
    rfl

/-- A type, attributes in front of another declaration, or a semicolon. -/
theorem typeOrStatement (h : s.Ready) (hstarts : s.cursor.startsDeclaration = true)
    (hdirective : ¬s.cursor.seesUsingDirective = true) (hword : s.seesKeyword "namespace" = false) (scope : ScopeId) :
    (Reading.typeOrStatement scope s).Reported ∨ (Reading.typeOrStatement scope s).Ready := by
  have hheader := h.level.header
  rw [Reading.typeOrStatement]
  simp only
  split
  · exact (TypeDeclaration.stays.read hheader ‹_› scope _).ready
  · rename_i htype
    have hbegins : s.cursor.beginsDeclaration = false := by
      rw [Cursor.beginsDeclaration, Bool.eq_false_iff.mpr hdirective,
        show s.cursor.seesKeyword "namespace" = false from hword]
      exact Bool.eq_false_iff.mpr htype
    rw [Cursor.startsDeclaration, hbegins, Bool.or_false] at hstarts
    by_cases hsemicolon : s.sees ";" = true
    · have hnone : s.header.1 = {} := congrArg Prod.fst (Cursor.header_of_semicolon hsemicolon)
      have heat : s.eat? ";" = some s.next := by
        rw [Reading.eat?, Cursor.eat?, show s.cursor.sees ";" = true from hsemicolon]
        rfl
      rw [hnone, if_neg (by decide), Statement.read_of_semicolon hsemicolon]
      exact (h.level.eat_semicolon heat).ready
    · rw [show s.cursor.sees ";" = false from Bool.eq_false_iff.mpr hsemicolon, Bool.false_or,
        Bool.and_eq_true] at hstarts
      have hattributes : (s.header.1.hasAttributes && decide (s.header.1.modifiers = {})) = true := hstarts.1
      rw [if_pos hattributes]
      refine hheader.imp_right fun hlevel => ?_
      obtain ⟨t, rest, hahead⟩ :=
        List.exists_cons_of_ne_nil (Cursor.ahead_ne_nil_of_beginsDeclaration hstarts.2)
      have hpeek : (Header.read s.cursor).2.peek? = some t := by rw [Cursor.peek?, hahead]; rfl
      obtain ⟨inner, hinner, hstands⟩ := Cursor.Level.stands hlevel hpeek
      rw [Floor.closers, List.append_nil] at hstands
      exact ⟨inner, hinner, hstands, .inr hstarts.2⟩

/-- A member of the file leads to the next one, or the file ends with all braces closed. -/
theorem namespaceRound (h : s.Ready) (hdeclarative : Token.Declarative tokens) (hsound : s.Sound tokens fun _ => True)
    {body : NamespaceBody} (hbody : body.opening = none)
    (hfile : ∀ {t : Reading} {inner : NamespaceBody}, t.size < s.size → t.Sound tokens (fun _ => True) →
      t.Ended .file → inner.opening = none → (inner.read t).Finished) :
    (Reading.namespaceRound NamespaceBody.read body s).All (fun t => t.Reported ∨ t.Ready) Finished := by
  rw [Reading.namespaceRound]
  split
  · simp only [hbody]
    exact .inr h.balanced
  · rename_i t hpeek
    have hstarts := h.startsDeclaration hdeclarative hsound.inside (Cursor.ahead_ne_nil_of_peek? hpeek)
    split
    · simp only [hbody]
      exact .inl (Reported.report _ _).next
    · split
      · exact (h.level.usingDirective hpeek ‹_› body).ready
      · rename_i hdirective
        split
        · rename_i hword
          have hname := (h.level.next hpeek (Token.not_isBrace_of_isKeyword hword)).namespaceName body
          rcases namespaceDeclaration_cases NamespaceBody.read body s with
            ⟨r, hreported, heq⟩ | ⟨behind, heat, heq⟩ | ⟨inside, heat, heq⟩
          · rw [heq]
            exact .inl hreported
          · rw [heq]
            obtain ⟨hbehind, hlt⟩ := hsound.namespaceName (Cursor.ahead_ne_nil_of_peek? hpeek) body heat
            exact hfile hlt hbehind (hname.eat_semicolon heat) hbody
          · rw [heq]
            exact (hname.namespaceBlock NamespaceBody.stays heat _ _).ready
        · rename_i hword
          have hword : s.seesKeyword "namespace" = false := by
            rw [Reading.seesKeyword, Cursor.seesKeyword, show s.cursor.peek? = some t from hpeek]
            exact Bool.eq_false_iff.mpr hword
          split
          · rename_i halias
            obtain ⟨hisExtern, halias⟩ := Bool.and_eq_true_iff.mp halias
            have hextern : s.cursor.seesKeyword "extern" = true := by
              rw [Cursor.seesKeyword, show s.cursor.peek? = some t from hpeek]
              exact hisExtern
            obtain ⟨hheader, htype⟩ := Cursor.header_of_alias hextern halias
            have hword : s.cursor.seesKeyword "namespace" = false := hword
            have hsemicolon : s.cursor.sees ";" = false := by
              rw [Cursor.sees_of_peek? hpeek]
              exact Token.not_isPunctuation_of_isKeyword hisExtern _
            rw [Cursor.startsDeclaration, Cursor.beginsDeclaration, hheader, hsemicolon, hword, htype,
              Bool.eq_false_iff.mpr hdirective] at hstarts
            cases hstarts
          · have hitem := h.typeOrStatement hstarts hdirective hword body.scope
            rcases progress_cases (Reading.typeOrStatement body.scope) s with heq | hreported | ⟨hend, -⟩
            · rwa [heq]
            · exact .inl hreported
            · rw [hpeek] at hend
              cases hend

end Ready

end Reading

/-- A file without top-level statements is read to its end with all braces closed, or something is reported. The
induction is on the tokens ahead: the members behind a member, and those of a namespace without braces, have fewer. -/
theorem NamespaceBody.finishes {tokens : List Token} (hdeclarative : Token.Declarative tokens) {s : Reading}
    (hsound : s.Sound tokens fun _ => True) (h : s.Reported ∨ s.Ready) {body : NamespaceBody}
    (hbody : body.opening = none) : (body.read s).Finished := by
  induction hsize : s.size using Nat.strongRecOn generalizing s body with
  | ind n ih =>
    rcases h with hreported | hready
    · -- What was reported stays reported.
      have herrors : s.errors ≠ #[] := hreported.resolve_right (by simp [hsound.moving])
      have hkept : s.Sound tokens (· ≠ #[]) := ⟨hsound.inside, hsound.moving, herrors⟩
      have hread := (Correspondence.namespaceBody (hkept.related fun e _ => Array.push_ne_empty) body.alike_self).1
      exact .inl (.inl (Reading.sound_of_related hread.related).errors)
    · have hround := hready.namespaceRound hdeclarative hsound hbody fun {t inner} hlt ht hended hinner =>
        ih t.size (hsize ▸ hlt) ht hended.ready hinner rfl
      have hstep := Correspondence.namespaceRound (n := s.size)
        (fun h hinner _ => Correspondence.namespaceBody h hinner) (hsound.related fun _ => id) body.alike_self
        (Nat.le_refl _)
      rw [NamespaceBody.read_eq hsound.moving]
      cases hnext : Reading.namespaceRound NamespaceBody.read body s with
      | done result =>
        rw [hnext] at hround
        rw [rounds_of_done hnext]
        exact hround
      | again next =>
        rw [hnext] at hround
        obtain ⟨hbehind, hlt⟩ := Reading.sound_of_again hstep hnext
        rw [rounds_of_again hnext hlt, ← NamespaceBody.read_eq hbehind.moving]
        exact ih next.size (hsize ▸ hlt) hbehind hround hbody rfl

namespace CompilationUnit

variable {tokens : List Token}

theorem not_reported (h : (ofTokens tokens).errors = []) :
    ¬(NamespaceBody.file.read (.ofTokens tokens)).Reported := by
  rintro (herrors | hstalled)
  · exact herrors (Array.toList_eq_nil_iff.mp h)
  · rw [(consumed_file tokens).moving] at hstalled
    cases hstalled

theorem stands_ofTokens (h : Token.Orderly tokens) : (Reading.ofTokens tokens).cursor.Stands [] := ⟨h, rfl⟩

/-- A brace that closes nothing is reported in every orderly file. -/
theorem braceDepth_ne_none (horderly : Token.Orderly tokens) (h : (ofTokens tokens).errors = []) :
    Token.braceDepth tokens ≠ none := by
  have hstart : (Reading.ofTokens tokens).Level .file :=
    .inr (Cursor.Level.of_stands (stands_ofTokens horderly))
  have hbody : Floor.file.Fits .file := rfl
  have hfile : (NamespaceBody.file.read (.ofTokens tokens)).Level .file := NamespaceBody.stays.read hstart hbody
  have hend := hfile.resolve_left (not_reported h)
  rw [(consumed_file tokens).cursor] at hend
  have hdepth : ∃ n, Token.braceDepth tokens = some n := by
    rcases hend with ⟨inner, -, hstands⟩ | ⟨-, pending, hstands⟩
    · exact ⟨_, List.reverse_reverse tokens ▸ hstands.depth⟩
    · exact ⟨_, List.reverse_reverse tokens ▸ hstands.depth⟩
  obtain ⟨n, hdepth⟩ := hdepth
  rw [hdepth]
  exact Option.some_ne_none n

/-- A brace that is never closed is reported in an orderly file without top-level statements. -/
theorem balanced (horderly : Token.Orderly tokens) (hdeclarative : Token.Declarative tokens)
    (h : (ofTokens tokens).errors = []) : Token.Balanced tokens := by
  have hsound : (Reading.ofTokens tokens).Sound tokens fun _ => True := ⟨rfl, rfl, trivial⟩
  have hready : (Reading.ofTokens tokens).Ready := ⟨[], List.not_mem_nil, stands_ofTokens horderly, .inl rfl⟩
  have hbody : NamespaceBody.file.opening = none := rfl
  have hfile := (NamespaceBody.finishes hdeclarative hsound (.inr hready) hbody).resolve_left (not_reported h)
  rwa [(consumed_file tokens).cursor, List.reverse_reverse] at hfile

-- The expression of a top-level statement extends to the end of the file, over a brace that is never closed.
example : Token.Orderly (TokenStream.ofSource "f \x7b").significant ∧ (ofSource "f \x7b").errors = [] := by
  decide +kernel

/-- Braces that are not balanced are reported in an orderly file, if one of them closes nothing or if there are no
top-level statements. -/
theorem errors_ne_nil_of_unbalanced {source : String}
    (horderly : Token.Orderly (TokenStream.ofSource source).significant)
    (hunbalanced : ¬Token.Balanced (TokenStream.ofSource source).significant)
    (hplace : Token.braceDepth (TokenStream.ofSource source).significant = none ∨
      Token.Declarative (TokenStream.ofSource source).significant) :
    (ofSource source).errors ≠ [] := by
  intro hnone
  rcases hplace with hmatched | hdeclarative
  · exact braceDepth_ne_none horderly hnone hmatched
  · exact hunbalanced (balanced horderly hdeclarative hnone)

/-- The body of the class is never closed. -/
theorem errors_ne_nil_unclosed_class :
    let source := "using N; class C \x7b int[] x = \x7b 1 \x7d;"
    let tokens := (TokenStream.ofSource source).significant
    Token.Orderly tokens ∧ ¬Token.Balanced tokens ∧ Token.Declarative tokens ∧ (ofSource source).errors ≠ [] := by
  intro source tokens
  have horderly : Token.Orderly tokens := by decide +kernel
  have hunbalanced : ¬Token.Balanced tokens := by decide +kernel
  have hdeclarative : Token.Declarative tokens := by decide +kernel
  exact ⟨horderly, hunbalanced, hdeclarative, errors_ne_nil_of_unbalanced horderly hunbalanced (.inr hdeclarative)⟩

/-- The brace in the arguments is never closed: the parenthesis behind it is taken to close it. -/
theorem errors_nil_brace_in_arguments :
    let source := "class C \x7b int x = F(\x7b); \x7d"
    (TokenStream.ofSource source).errors = [] ∧ ¬Token.Balanced (TokenStream.ofSource source).significant ∧
      (ofSource source).errors = [] := by
  decide +kernel

end CompilationUnit

end CSharpStyle
