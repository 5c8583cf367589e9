import CSharpStyle.Proofs.Grammar.Consumption
import CSharpStyle.Proofs.Recording.Member
import CSharpStyle.Proofs.Recording.Names

/-!
# Steps through a file

A directive is put down to its first token, which is held while the rest of the directive is read. A whole file is read
to its end, so that the recorded names are tokens of the file, each at a place of its own.

* `Reading.Run.usingDirective`: a directive records its first token.
* `NamespaceBody.keeps`: steps lead through namespaces, by induction on the tokens ahead.
* `CompilationUnit.run_ofTokens`: steps lead through a file.
* `CompilationUnit.names_ofTokens`: the names of a file are tokens of the file, none of them twice.
-/

namespace CSharpStyle

namespace Cursor

variable {c : Cursor}

theorem skipKeyword_of_sees {word : String} (h : c.seesKeyword word = true) : c.skipKeyword word = c.next := by
  rw [skipKeyword, eatKeyword?, if_pos h]
  rfl

theorem skipKeyword_of_not_sees {word : String} (h : ¬c.seesKeyword word = true) : c.skipKeyword word = c := by
  rw [skipKeyword, eatKeyword?, if_neg h]
  rfl

/-- The keywords of a directive begin with its first token. -/
theorem suffix_directive {t : Token} (hpeek : c.peek? = some t) (h : c.seesUsingDirective = true) :
    t :: c.before <:+ ((c.skipKeyword "global").skipKeyword "using").before := by
  by_cases hglobal : c.seesKeyword "global"
  · rw [skipKeyword_of_sees hglobal, ← before_next hpeek]
    exact suffix_skipKeyword _ "using"
  · rw [seesUsingDirective, skipKeyword_of_not_sees hglobal] at h
    rw [skipKeyword_of_not_sees hglobal]
    cases husing : c.eatKeyword? "using" with
    | none =>
      rw [husing] at h
      cases h
    | some behind =>
      rw [eatKeyword?] at husing
      split at husing
      · have hbefore : (c.skipKeyword "using").before = t :: c.before := by
          rw [skipKeyword_of_sees ‹_›, before_next hpeek]
        exact hbefore ▸ List.suffix_rfl
      · cases husing

end Cursor

/-- Steps lead through the members of every namespace, and leave open and held what was, if everything is admitted. -/
structure NamespaceReader.Keeps (members : NamespaceReader) : Prop where
  read {admitted : Declaration → Prop} {base : Stage} {opened : List DeclaratorGroup} {held : List Token} {s : Reading}
    (hall : ∀ d, admitted d) (h : s.Run admitted base opened held) (body : NamespaceBody) :
    (members body s).Run admitted base opened held

namespace Reading.Run

variable {admitted : Declaration → Prop} {base : Stage} {opened : List DeclaratorGroup} {held : List Token}
  {s : Reading}

/-! ### Directives -/

theorem takeText (h : s.Run admitted base opened held) (p : Token → Bool) :
    (s.takeText p).2.Run admitted base opened held := h.skipWhile p

theorem aliasName (h : s.Run admitted base opened held) : s.aliasName.2.Run admitted base opened held := by
  rw [Reading.aliasName]
  split
  · split
    · exact (h.name ‹_›).tail.eat ‹_›
    · exact h
  · exact h

/-- A directive holds its first token until it is recorded. -/
theorem usingDirective {t : Token} (h : s.Run admitted base opened held) (body : NamespaceBody)
    (hpeek : s.peek? = some t) (hsees : s.cursor.seesUsingDirective = true) :
    (Reading.usingDirective body s).Run admitted base opened held := by
  have hposition : s.position = t.start := by
    obtain ⟨⟨before, ahead⟩, outline, errors, stalled⟩ := s
    cases ahead with
    | nil => cases hpeek
    | cons u ahead =>
      cases hpeek
      rfl
  have hread {consumed : List Token} (h : s.cursor.Covers consumed) :
      ((s.cursor.skipKeyword "global").skipKeyword "using").Covers ([t] ++ consumed) := by
    have hfirst : Cursor.Covers ⟨t :: s.cursor.before, s.cursor.ahead⟩ (t :: consumed) := h.cons rfl
    exact hfirst.mono (Cursor.suffix_directive hpeek hsees)
  have hbehind : s.cursor.before <:+ ((s.cursor.skipKeyword "global").skipKeyword "using").before :=
    (List.suffix_cons t _).trans (Cursor.suffix_directive hpeek hsees)
  have hkeywords : Run admitted base opened (t :: held)
      (s.move fun c => (c.skipKeyword "global").skipKeyword "using") :=
    h.consume hbehind hread
  have htarget := ((hkeywords.move (Cursor.suffix_skipKeyword _ "static")).aliasName).takeText
    fun t => !(t.isPunctuation ";" || t.isPunctuation "\x7d")
  exact (htarget.require ";" _).addUsing hposition

/-! ### Namespaces -/

section Namespaces

variable (hall : ∀ d, admitted d)
include hall

theorem typeOrStatement (h : s.Run admitted base opened held) (scope : ScopeId) :
    (Reading.typeOrStatement scope s).Run admitted base opened held := by
  rw [Reading.typeOrStatement]
  simp only
  split
  · exact TypeDeclaration.keeps.read hall h.header scope _
  · split
    · exact h.header
    · exact Statement.keeps.read h scope

variable {members : NamespaceReader} (hmembers : members.Keeps)
include hmembers

theorem namespaceDeclaration (h : s.Run admitted base opened held) (body : NamespaceBody) :
    (Reading.namespaceDeclaration members body s).All (Run admitted base opened held)
      (Run admitted base opened held) := by
  have hname := h.next.takeText fun t => t.isName || t.isPunctuation "." || t.isPunctuation "::"
  rw [Reading.namespaceDeclaration]
  simp only
  split
  · exact (hname.report _).recover
  · have hopen := hname.openScope .namespaceBody
      (some (s.next.takeText fun t => t.isName || t.isPunctuation "." || t.isPunctuation "::").1) body.scope
    split
    · exact hmembers.read hall (hopen.eat ‹_›) _
    · split
      · exact hmembers.read hall (hopen.eat ‹_›) _
      · exact (hopen.report _).recover

theorem namespaceRound (h : s.Run admitted base opened held) (body : NamespaceBody) :
    (Reading.namespaceRound members body s).All (Run admitted base opened held) (Run admitted base opened held) := by
  rw [Reading.namespaceRound]
  split
  · split
    · exact h.reportAt _ _
    · exact h
  · split
    · split
      · exact h.next
      · exact (h.report _).next
    · split
      · exact h.usingDirective body ‹_› ‹_›
      · split
        · exact h.namespaceDeclaration hall hmembers body
        · split
          · exact h.statementEnd body.scope
          · exact progress (h.typeOrStatement hall body.scope)

end Namespaces

end Reading.Run

/-- Steps lead through namespaces. The induction is on the tokens ahead: a namespace inside another one has fewer. -/
theorem NamespaceBody.keeps : NamespaceReader.Keeps NamespaceBody.read where
  read {admitted base opened held s} hall h body := by
    induction hsize : s.size using Nat.strongRecOn generalizing admitted base opened held s body with
    | ind n ih =>
      rw [NamespaceBody.read]
      refine rounds_all (fun h => h.namespaceRound hall ⟨fun {admitted base opened held t} hall ht inner => ?_⟩ body)
        Reading.Run.stall h
      by_cases hlt : t.size < s.size
      · rw [if_pos hlt]
        exact ih t.size (hsize ▸ hlt) hall ht inner rfl
      · rw [if_neg hlt]
        exact ht.stall

namespace CompilationUnit

/-- A file is read in steps, which leave no group open and hold no name at its end. -/
theorem run_ofTokens (tokens : List Token) :
    (NamespaceBody.read .file (Reading.ofTokens tokens)).Run (fun _ => True) (.ofTokens tokens) [] [] :=
  NamespaceBody.keeps.read (fun _ => trivial) (.refl (.ofTokens tokens)) .file

/-- The names of a file are tokens of the file, each at a place of its own. -/
theorem names_ofTokens (tokens : List Token) :
    ∃ named firsts, (ofTokens tokens).outline.Names named firsts ∧ (named ++ firsts).Subperm tokens := by
  obtain ⟨named, firsts, hnames, hcovers⟩ :=
    (run_ofTokens tokens).invariant (I := fun σ => σ.reading.Holds σ.held) Stage.Step.holds (.ofTokens tokens)
  rw [Cursor.Covers, (consumed_file tokens).cursor, List.nil_append] at hcovers
  exact ⟨named, firsts, hnames, hcovers.trans (List.reverse_perm tokens).subperm⟩

end CompilationUnit

end CSharpStyle
