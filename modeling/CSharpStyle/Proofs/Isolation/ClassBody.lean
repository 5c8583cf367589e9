import CSharpStyle.Proofs.Isolation.Member

/-!
# Isolation of malformed members

In `class C { M ; R }` the reader of members is back in step right behind the `;`, whatever is wrong in `M`, unless it
was lost in `M`. When it was, even `class C { M ; }` is read past its closing brace and reported as never closed, so
the defects of this one file tell whether `M` is isolated from everything that may follow it.

* `Inside.leaves`: the body of the class is left behind the `;`, or reading is lost.
* `CompilationUnit.isolated_iff`: the condition for isolation.
-/

namespace CSharpStyle

open Token

namespace Reading

variable {rest : List Token} {s t : Reading}

namespace Inside

/-- A token consumed in one file is consumed in the other. -/
theorem isStill_eq (h : Inside rest s t) {s' t' : Reading} (h' : Inside rest s' t') :
    s.cursor.isStill s'.cursor = t.cursor.isStill t'.cursor := by
  obtain ⟨text, -, hs, ht⟩ := h.cursor
  obtain ⟨text', -, hs', ht'⟩ := h'.cursor
  rw [Cursor.isStill, Cursor.isStill, ← h.cursor.peek_eq, ← h'.cursor.peek_eq]
  congr 1
  rw [hs, ht, hs', ht', Bool.eq_iff_iff, beq_iff_eq, beq_iff_eq]
  simp only [List.length_append, List.length_cons]
  omega

/-- There is a token ahead in both files, besides what follows the member. -/
theorem size_lt (h : Inside rest s t) : rest.length < s.size ∧ 1 < t.size := by
  obtain ⟨text, -, hs, ht⟩ := h.cursor
  rw [size, Cursor.size, hs, size, Cursor.size, ht]
  simp only [List.length_append, List.length_cons]
  omega

theorem progress (h : Inside rest s t) {a : Token} (ha : s.peek? = some a) (hsemi : a.isPunctuation ";" = false)
    (read : Reading → Reading) (hread : Passage rest (read s) (read t)) :
    Passage rest (s.progress read) (t.progress read) := by
  obtain ⟨hsize, hpos⟩ := h.size_lt
  cases hread with
  | inside h' =>
    simp only [Reading.progress, ← h.isStill_eq h', ← h.peek_eq, ha]
    split
    · rename_i hstill
      have hpeek : (read s).peek? = s.peek? := eq_of_beq (Bool.and_eq_true_iff.mp hstill).1
      exact .inside ((h'.report (by rintro ⟨⟩)).next (hpeek.trans ha) hsemi)
    · exact .inside h'
  | behind h' =>
    have hs : (read s).size = rest.length := congrArg List.length h'.ahead.1
    have ht : (read t).size = 1 := congrArg List.length h'.ahead.2
    rw [progress_of_size_lt (hs ▸ hsize), progress_of_size_lt (ht ▸ hpos)]
    exact .behind h'
  | lost h' =>
    have hend {u : Reading} (hu : (read u).Spent) (hpos : 0 < u.size) : u.progress read = read u := by
      have hnil : (read u).size = 0 := congrArg List.length hu.ahead
      exact progress_of_size_lt (hnil ▸ hpos)
    have ht := hend h'.spent (Nat.zero_lt_of_lt hpos)
    refine .lost ⟨ht ▸ h'.spent, fun hrest => ?_⟩
    obtain ⟨hspent, hentries⟩ := h'.alike hrest
    rw [hend hspent (Nat.zero_lt_of_lt hsize), ht]
    exact ⟨hspent, hentries⟩

/-- The body of the class is left right behind the `;`, or reading is lost. -/
theorem leaves (h : Inside rest s t) :
    ∃ s' t', classBody s = classBody s' ∧ classBody t = classBody t' ∧ (Behind rest s' t' ∨ Lost rest s' t') := by
  induction hn : t.size using Nat.strongRecOn generalizing s t with
  | ind n ih =>
    rcases h.cursor.cases with ⟨hs, ht⟩ | ⟨a, text, htext, hs, ht, -⟩
    · have hround {u : Reading} {behind : List Token} (hu : u.cursor.ahead = mark ";" :: behind) :
          typeBodyRound TypeDeclaration.read (mark "\x7b").start ⟨1, .classType⟩ u = .again u.next := by
        rw [typeBodyRound, show u.peek? = some (mark ";") from congrArg List.head? hu]
        rfl
      exact ⟨s.next, t.next, (classBody_of_again h.moving.1 (hround hs)).1,
        (classBody_of_again h.moving.2 (hround ht)).1, .inl (h.next_behind hs ht)⟩
    · have hpeek : s.peek? = some a := congrArg List.head? hs
      have hsemi := htext.noSemicolon (List.mem_cons_self ..)
      have hbrace := (htext.noBrace (List.mem_cons_self ..)).2
      have hround {u : Reading} (hu : u.peek? = some a) :
          typeBodyRound TypeDeclaration.read (mark "\x7b").start ⟨1, .classType⟩ u =
            .again (u.progress fun u => (Reading.member TypeDeclaration.read ⟨1, .classType⟩ u).settle) := by
        simp only [typeBodyRound, hu, hbrace, hsemi, Bool.false_eq_true, ↓reduceIte]
      obtain ⟨hs', -, -⟩ := classBody_of_again h.moving.1 (hround hpeek)
      obtain ⟨ht', -, hsize⟩ := classBody_of_again h.moving.2 (hround (h.peek_eq.symm.trans hpeek))
      rw [hs', ht']
      rcases h.progress hpeek hsemi (fun u => (Reading.member _ _ u).settle) h.member with h' | h' | h'
      · exact ih _ (hn ▸ hsize) h' rfl
      · exact ⟨_, _, rfl, rfl, .inl h'⟩
      · exact ⟨_, _, rfl, rfl, .inr h'⟩

end Inside

theorem Spent.restOfFile (h : s.Spent) :
    restOfFile (classBody s) = s.reportAt (mark "\x7b").start (.neverClosed "type body") := by
  have hbody : classBody s = s.reportAt (mark "\x7b").start (.neverClosed "type body") := by
    refine rounds_of_done ?_
    rw [typeBodyRound, h.peek_eq]
  have hspent : (s.reportAt (mark "\x7b").start (.neverClosed "type body")).Spent := ⟨h.ahead, h.moving⟩
  rw [hbody, Reading.restOfFile, skip, hspent.eat?, Option.getD_none]
  refine rounds_of_done ?_
  rw [namespaceRound, hspent.peek_eq]
  rfl

/-- The class ends with its closing brace, and the file with the class. -/
theorem restOfFile_closing (h : s.ahead = [mark "\x7d"]) : restOfFile (classBody s) = s.next := by
  obtain ⟨⟨before, ahead⟩, outline, errors, stalled⟩ := s
  cases (show ahead = [mark "\x7d"] from h)
  have hbody : classBody ⟨⟨before, [mark "\x7d"]⟩, outline, errors, stalled⟩ =
      ⟨⟨mark "\x7d" :: before, []⟩, outline, errors, stalled⟩ := rounds_of_done rfl
  rw [hbody]
  exact rounds_of_done rfl

/-- Right behind a `;` of the class the same is recorded as right behind one that begins the class. -/
theorem entries_behind (hahead : s.ahead = rest ++ [mark "\x7d"]) (hmark : s.cursor.before.head? = some (mark ";"))
    (hkept : s.outline.Kept) (hmoving : s.stalled = false) :
    (restOfFile (classBody s)).outline.entries =
      s.outline.entries ++ (CompilationUnit.ofTokens (classFile (mark ";" :: rest))).entries.tail := by
  let u := insideClass (mark ";" :: (rest ++ [mark "\x7d"]))
  have hbody : classBody u = classBody u.next := (classBody_of_again rfl rfl).1
  let C := Correspondence.shifted s.cursor u.next.cursor (fun _ => by rw [hmark]; rfl)
    2 (s.outline.scopes.size - 2) s.outline.entries Outline.ofClass.entries (E := fun _ _ => True)
    fun _ _ _ _ => trivial
  have houtline : Outline.Shifted 2 (s.outline.scopes.size - 2) s.outline.entries Outline.ofClass.entries s.outline
      Outline.ofClass := by
    have hsize := hkept.size
    refine ⟨?_, Nat.le_refl 2, hkept.heading, fun {id} hid => ?_, [], ?_, ?_⟩
    · rw [show Outline.ofClass.scopes.size = 2 from rfl]
      omega
    · rw [Outline.heading_eq_none (o := s.outline) (by omega), Outline.heading_eq_none (o := .ofClass) hid]
    · rw [List.append_nil]
    · rw [List.append_nil]
  have hstart : C.Related s u.next := by
    refine ⟨.refl ?_, houtline, trivial, hmoving, rfl⟩
    rw [show s.cursor.ahead = u.next.cursor.ahead from hahead]
    exact List.forall₂_same.mpr fun _ _ => .rfl
  have hclass := Correspondence.classBody hstart (.inl ⟨rfl, Nat.one_lt_two⟩) trivial
  have hend := Correspondence.restOfFile hclass.related (.inl ⟨rfl, Nat.two_pos⟩)
  obtain ⟨added, hentries, hentries'⟩ := hend.related.outline.entries
  rw [hentries, CompilationUnit.ofTokens_classFile, CompilationUnit.entries]
  congr 1
  rw [show insideClass (mark ";" :: rest ++ [mark "\x7d"]) = u from rfl, hbody, hentries']
  rfl

end Reading

open Reading

namespace Token

/-- The text of a member up to its `;`, well formed or not. -/
structure MemberText (member : List Token) : Prop where
  nested : Nested member
  noMark : ∀ t ∈ member, t.isPunctuation ";" = false ∧ t.isPunctuation "\x7b" = false ∧ t.isPunctuation "\x7d" = false

theorem MemberText.contained {member : List Token} (h : MemberText member) : Contained member where
  closed := ⟨[], h.nested⟩
  noSemicolon ht := (h.noMark _ ht).1
  noBrace ht := (h.noMark _ ht).2

end Token

namespace CompilationUnit

/-- The file with something behind the member and the file with nothing there are read in step. -/
private theorem exists_leaves {member : List Token} (h : MemberText member) (rest : List Token) :
    ∃ s t, (ofTokens (classFile (member ++ mark ";" :: rest))).entries = (restOfFile (classBody s)).outline.entries ∧
      ofTokens (classFile (member ++ [mark ";"])) =
        ⟨(restOfFile (classBody t)).outline, (restOfFile (classBody t)).errors.toList⟩ ∧
      (Behind (rest ++ [mark "\x7d"]) s t ∨ Lost (rest ++ [mark "\x7d"]) s t) := by
  have hinside : Inside (rest ++ [mark "\x7d"]) (insideClass (member ++ mark ";" :: rest ++ [mark "\x7d"]))
      (insideClass (member ++ [mark ";"] ++ [mark "\x7d"])) := by
    refine ⟨⟨rfl, ⟨Nat.le_refl 2, fun _ => rfl⟩, fun he => absurd he (Array.not_mem_empty _), rfl, rfl⟩, member,
      h.contained, ?_, ?_⟩
    · exact List.append_assoc ..
    · exact List.append_assoc ..
  obtain ⟨s, t, hs, ht, hleaves⟩ := hinside.leaves
  refine ⟨s, t, ?_, ?_, hleaves⟩
  · rw [ofTokens_classFile, hs]
    rfl
  · rw [ofTokens_classFile, ht]

/-- The text of a declaration that reading does not find when it is lost. -/
private def field : List Token := [keyword "int", identifier "a", mark ";"]

/-- A class whose member does not lose the reader is closed, and one whose member does is not. -/
private theorem closed_iff {member : List Token} (h : MemberText member) (rest : List Token) :
    ∃ s t, (ofTokens (classFile (member ++ mark ";" :: rest))).entries = (restOfFile (classBody s)).outline.entries ∧
      (ofTokens (classFile (member ++ [mark ";"]))).entries = t.outline.entries ∧
      ((Behind (rest ++ [mark "\x7d"]) s t ∧
          ∀ e ∈ (ofTokens (classFile (member ++ [mark ";"]))).errors, e.kind ≠ .unclosedScope) ∨
        Lost (rest ++ [mark "\x7d"]) s t ∧
          ∃ e ∈ (ofTokens (classFile (member ++ [mark ";"]))).errors, e.kind = .unclosedScope) := by
  obtain ⟨s, t, hs, ht, hbehind | hlost⟩ := exists_leaves h rest
  · rw [restOfFile_closing hbehind.ahead.2] at ht
    rw [ht]
    exact ⟨s, t, hs, rfl, .inl ⟨hbehind, fun e he => hbehind.closed (Array.mem_toList_iff.mp he)⟩⟩
  · rw [hlost.spent.restOfFile] at ht
    rw [ht]
    refine ⟨s, t, hs, rfl, .inr ⟨hlost, ⟨.neverClosed "type body", (mark "\x7b").start⟩, ?_, rfl⟩⟩
    exact Array.mem_toList_iff.mpr Array.mem_push_self

/-- Files with the tokens of `class C { M ; R }`, `class C { M ; }` and `class C { ; R }`, wherever these stand, where
the first records what the second one does and then all that the third one does behind `C`. -/
def Isolated (member rest : List Token) : Prop :=
  ∀ {file alone behind : List Token},
    List.Forall₂ Token.Alike (classFile (member ++ mark ";" :: rest)) file →
    List.Forall₂ Token.Alike (classFile (member ++ [mark ";"])) alone →
    List.Forall₂ Token.Alike (classFile (mark ";" :: rest)) behind →
    (ofTokens file).entries = (ofTokens alone).entries ++ (ofTokens behind).entries.tail

theorem alike_self (tokens : List Token) : List.Forall₂ Token.Alike tokens tokens :=
  List.forall₂_same.mpr fun _ _ => .rfl

/-- A member is isolated from everything that may follow its `;` if and only if the class that has no other member is
found to be closed. -/
theorem isolated_iff {member : List Token} (h : MemberText member) :
    (∀ rest, Isolated member rest) ↔
      ∀ {alone : List Token}, List.Forall₂ Token.Alike (classFile (member ++ [mark ";"])) alone →
        ∀ e ∈ (ofTokens alone).errors, e.kind ≠ .unclosedScope := by
  constructor
  · intro hisolated alone halone
    obtain ⟨s, t, hs, ht, ⟨-, hclosed⟩ | ⟨hlost, -⟩⟩ := closed_iff h field
    · exact kinds_of_alike (P := (· ≠ .unclosedScope)) halone hclosed
    · have hfile := hisolated field (alike_self _) (alike_self _) (alike_self _)
      obtain ⟨hspent, hentries⟩ := hlost.alike (by decide)
      rw [hs, ht, hspent.restOfFile] at hfile
      have hnil := List.self_eq_append_right.mp (hentries.symm.trans hfile)
      exact absurd hnil (by decide +kernel)
  · intro hclosed rest file alone behind hfile halone hbehind
    rw [← (entries_of_alike hfile).1, ← (entries_of_alike halone).1, ← (entries_of_alike hbehind).1]
    obtain ⟨s, t, hs, ht, ⟨hmember, -⟩ | ⟨-, e, he, hkind⟩⟩ := closed_iff h rest
    · rw [hs, ht, entries_behind hmember.ahead.1 hmember.mark (hmember.outline ▸ hmember.kept) hmember.moving.1,
        hmember.outline]
    · exact absurd hkind (hclosed (alike_self _) e he)

/-- A field without a name is isolated. -/
theorem isolated_nameless_field :
    MemberText [keyword "int"] ∧ ∀ rest, Isolated [keyword "int"] rest := by
  have htext : MemberText [keyword "int"] := ⟨by decide, by decide⟩
  refine ⟨htext, (isolated_iff htext).mpr fun halone => ?_⟩
  exact kinds_of_alike (P := (· ≠ .unclosedScope)) halone (by decide +kernel)

/-- Behind a list of type parameters without a name the next field is lost. -/
theorem not_isolated_type_parameters :
    ¬Isolated [keyword "void", identifier "F", mark "<"] [keyword "int", identifier "a", mark ";"] := by
  intro h
  have hfile := h (alike_self _) (alike_self _) (alike_self _)
  revert hfile
  decide +kernel

end CompilationUnit

end CSharpStyle
