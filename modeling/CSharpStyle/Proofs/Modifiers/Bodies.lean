import CSharpStyle.Proofs.Grammar.ClassFile
import CSharpStyle.Proofs.Modifiers.Order

/-!
# Members with their modifiers in another order

A member stands in the body of a type, which stands in other bodies, and all of them are read to their ends behind it.
With its modifiers in another order, the member and all that follows is recorded and reported alike, unless the word
`new` comes to stand in front of a bracket: that word is reported, and the member is skipped.

* `Body` and `readOut`: the bodies around a member, and reading them to their ends.
* `Enters front s bodies`: behind the tokens `front`, a file goes on with members of the innermost of the bodies.
* `CompilationUnit.entries_of_perm`: a file in which a member has its modifiers in another order.
-/

namespace CSharpStyle

open Token Reading

/-! ### Bodies -/

/-- A body that is being read. -/
inductive Body
  | type (opening : Position) (place : Place)
  | namespaceBody (body : NamespaceBody)

/-- Reads what is left of a body. -/
def Body.read : Body → Reading → Reading
  | type opening place, s => (typeBody TypeDeclaration.read opening place s).skip ";"
  | namespaceBody body, s => body.read s

/-- Reads what is left of bodies, from the innermost one outwards. -/
def readOut (bodies : List Body) (s : Reading) : Reading := bodies.foldl (fun s body => body.read s) s

namespace Reading

/-- The reading with other tokens ahead. -/
def facing (s : Reading) (ahead : List Token) : Reading := { s with cursor := ⟨s.cursor.before, ahead⟩ }

/-- What was read when all tokens are consumed. -/
def unit (s : Reading) : CompilationUnit := ⟨s.outline, s.errors.toList⟩

end Reading

/-- Behind the tokens `front`, a file goes on with the members of a type, whatever modifier comes next: it is read from
`s` on, in the type and the bodies around it. -/
structure Enters (front : List Token) (s : Reading) (opening : Position) (place : Place) (around : List Body) :
    Prop where
  moving : s.stalled = false
  unit {ahead : List Token} : ahead.head?.any (·.isModifierKeyword) →
    CompilationUnit.ofTokens (front ++ ahead) = (readOut (.type opening place :: around) (s.facing ahead)).unit

/-- The same is recorded and reported. -/
def CompilationUnit.Agrees (unit unit' : CompilationUnit) : Prop :=
  unit.entries = unit'.entries ∧ unit.errors.map (·.defect) = unit'.errors.map (·.defect)

/-! ### Headers that end alike -/

namespace Correspondence

variable {C : Correspondence} {s t : Reading}

/-- Two bodies that go on with a member are read alike from behind the headers of the members. -/
theorem typeBody_behindHeader {F G : TypeReader} {i j : ScopeId} {o : TypeKind} {p q : Position}
    (hread : C.Types (s.header.2.size + 1) F G) (h : C.Related s.header.2 t.header.2)
    (hheader : s.header.1 = t.header.1) (hs : s.header.2.size < s.size) (ht : t.header.2.size < t.size)
    (hword : s.peek?.any (·.kind == .keyword)) (hword' : t.peek?.any (·.kind == .keyword))
    (hij : C.scopes s.header.2.outline t.header.2.outline i j) (hpq : C.positions p q) :
    C.Leads s.header.2 t.header.2 (Reading.typeBody F p ⟨i, o⟩ s) (Reading.typeBody G q ⟨j, o⟩ t) := by
  have hmember :
      C.Leads s.header.2 t.header.2 (Reading.member F ⟨i, o⟩ s).settle (Reading.member G ⟨j, o⟩ t).settle := by
    rw [Reading.member_eq, Reading.member_eq, ← hheader]
    exact settle (memberBehind hread h hij (Nat.lt_succ_self _) _)
  have hround {F : TypeReader} {s : Reading} {i : ScopeId} {p : Position} (hword : s.peek?.any (·.kind == .keyword))
      (hsize : (Reading.member F ⟨i, o⟩ s).settle.size < s.size) :
      Reading.typeBody F p ⟨i, o⟩ s = Reading.typeBody F p ⟨i, o⟩ (Reading.member F ⟨i, o⟩ s).settle := by
    obtain ⟨a, ha, hkind⟩ := (Option.any_eq_true _ _).mp hword
    have hmark := not_isPunctuation_of_kind (t := a) (by rw [eq_of_beq hkind]; decide)
    exact rounds_of_again (typeBodyRound_of_size_lt ha (hmark _) (hmark _) hsize _) hsize
  have hsize := Nat.lt_of_le_of_lt hmember.size_le hs
  have hsize' : (Reading.member G ⟨j, o⟩ t).settle.size < t.size := by
    rw [← hmember.related.size_eq]
    exact Nat.lt_of_le_of_lt (h.size_eq ▸ hmember.size_le) ht
  rw [hround hword hsize, hround hword' hsize']
  exact hmember.trans (typeBody hread hmember.related (hmember.scopes hij) (Nat.lt_succ_of_le hmember.size_le) hpq)

/-- Bodies are read alike if all places and scopes are related to themselves. -/
theorem readOut (bodies : List Body) (h : C.Related s t) (hpositions : ∀ p, C.positions p p)
    (hscopes : ∀ {o p : Outline} (i : ScopeId), C.scopes o p i i) :
    C.Related (CSharpStyle.readOut bodies s) (CSharpStyle.readOut bodies t) := by
  induction bodies generalizing s t with
  | nil => exact h
  | cons body bodies ih =>
    refine ih ?_
    cases body with
    | type opening place =>
      have hbody := typeBody (o := place.owner) (types (s.size + 1)) h (hscopes place.scope) (Nat.lt_succ_self _)
        (hpositions opening)
      exact (hbody.related.skip ";").related
    | namespaceBody body =>
      have hopening : Option.Rel C.positions body.opening body.opening := by
        cases body.opening with
        | none => exact .none
        | some p => exact .some (hpositions p)
      exact (namespaceBody h ⟨hscopes body.scope, rfl, hopening⟩).1.related

end Correspondence

namespace Reading

variable {modifiers modifiers' rest rest' : List Token} {s : Reading}

/-- The header of a member behind its modifiers. -/
theorem header_facing (hmodifiers : ∀ t ∈ modifiers, t.isModifierKeyword) (hend : leavesNew modifiers rest = false) :
    (s.facing (modifiers ++ rest)).header =
      let read := Header.readOn { modifiers := ({} : Modifiers).addAll (modifiers.map (·.text)) }
        ⟨modifiers.reverse ++ s.cursor.before, rest⟩
      (read.1, { s with cursor := read.2 }) := by
  rw [header, Header.read, facing, Header.readOn_modifiers {} hmodifiers hend]

/-- Bodies are recorded and reported alike if the modifiers in front say the same. -/
theorem readOut_of_addAll_eq (hs : s.stalled = false) (hmodifiers : ∀ t ∈ modifiers, t.isModifierKeyword)
    (hmodifiers' : ∀ t ∈ modifiers', t.isModifierKeyword) (hne : modifiers ≠ []) (hne' : modifiers' ≠ [])
    (hsame : ({} : Modifiers).addAll (modifiers.map (·.text)) = ({} : Modifiers).addAll (modifiers'.map (·.text)))
    (hend : leavesNew modifiers rest = false) (hend' : leavesNew modifiers' rest' = false)
    (hrest : List.Forall₂ Token.Alike rest rest') (opening : Position) (place : Place) (around : List Body) :
    (readOut (.type opening place :: around) (s.facing (modifiers ++ rest))).unit.Agrees
      (readOut (.type opening place :: around) (s.facing (modifiers' ++ rest'))).unit := by
  have hkeyword {modifiers rest : List Token} (hmodifiers : ∀ t ∈ modifiers, t.isModifierKeyword)
      (hne : modifiers ≠ []) : (s.facing (modifiers ++ rest)).peek?.any (·.kind == .keyword) := by
    obtain ⟨t, more, rfl⟩ := List.exists_cons_of_ne_nil hne
    exact beq_iff_eq.mpr (kind_of_isModifierKeyword (hmodifiers t List.mem_cons_self))
  have hbehind {modifiers : List Token} (hmodifiers : ∀ t ∈ modifiers, t.isModifierKeyword) (hne : modifiers ≠ []) :
      (modifiers.reverse ++ s.cursor.before).head?.any (·.isPunctuation "=>") = false := by
    obtain ⟨t, more, hreverse⟩ := List.exists_cons_of_ne_nil (List.reverse_ne_nil_iff.mpr hne)
    have ht := hmodifiers t (List.mem_reverse.mp (hreverse ▸ List.mem_cons_self))
    rw [hreverse, List.cons_append, List.head?_cons, Option.any_some]
    exact not_isPunctuation_of_kind (by rw [kind_of_isModifierKeyword ht]; decide) "=>"
  let start : Cursor := ⟨modifiers.reverse ++ s.cursor.before, rest⟩
  let start' : Cursor := ⟨modifiers'.reverse ++ s.cursor.before, rest'⟩
  let C := Correspondence.shifted start start'
    (fun _ => (hbehind hmodifiers hne).trans (hbehind hmodifiers' hne').symm) 0 0 [] []
    (E := fun errors errors' => errors.toList.map (·.defect) = errors'.toList.map (·.defect)) (by simp_all)
  have hscopes {o p : Outline} (i : ScopeId) : C.scopes o p i i := .inr ⟨rfl, Nat.zero_le _⟩
  have hread := (C.lockstep start.size).readOn (c := start) (d := start') ⟨.refl hrest, Nat.le_refl _⟩
    { modifiers := ({} : Modifiers).addAll (modifiers.map (·.text)) }
  have hheader := header_facing (s := s) hmodifiers hend
  have hheader' := header_facing (s := s) hmodifiers' hend'
  rw [← hsame] at hheader'
  have hrelated : C.Related (s.facing (modifiers ++ rest)).header.2 (s.facing (modifiers' ++ rest')).header.2 := by
    rw [hheader, hheader']
    exact ⟨hread.2.1, Outline.shifted_of_eq rfl rfl rfl, rfl, hs, hs⟩
  have hlength {modifiers rest : List Token} (hne : modifiers ≠ []) :
      rest.length < (s.facing (modifiers ++ rest)).size := by
    have := List.length_pos_iff.mpr hne
    simp only [facing, size, Cursor.size, List.length_append]
    omega
  have hsize : (s.facing (modifiers ++ rest)).header.2.size < (s.facing (modifiers ++ rest)).size := by
    rw [hheader]
    exact Nat.lt_of_le_of_lt hread.2.2 (hlength hne)
  have hsize' : (s.facing (modifiers' ++ rest')).header.2.size < (s.facing (modifiers' ++ rest')).size := by
    rw [← hrelated.size_eq, hheader]
    exact Nat.lt_of_le_of_lt hread.2.2 (Nat.lt_of_le_of_lt (Nat.le_of_eq hrest.length_eq) (hlength hne'))
  have hbody := Correspondence.typeBody_behindHeader (o := place.owner) (p := opening) (q := opening)
    (Correspondence.types _) hrelated (by rw [hheader, hheader']; exact hread.1) hsize hsize' (hkeyword hmodifiers hne)
    (hkeyword hmodifiers' hne') (hscopes place.scope) trivial
  have hout := Correspondence.readOut around (hbody.related.skip ";").related (fun _ => trivial) hscopes
  obtain ⟨added, hentries, hentries'⟩ := hout.outline.entries
  exact ⟨hentries.trans hentries'.symm, hout.errors⟩

/-- The order of the modifiers of the next member does not matter, unless `new` is left in one of the orders only. -/
theorem readOut_agrees_of_perm (hs : s.stalled = false) (hmodifiers : ∀ t ∈ modifiers, t.isModifierKeyword)
    (haccess : Modifiers.IsUnordered (modifiers.map (·.text))) (hperm : modifiers.Perm modifiers')
    (hnew : leavesNew modifiers rest = leavesNew modifiers' rest) (opening : Position) (place : Place)
    (around : List Body) :
    (readOut (.type opening place :: around) (s.facing (modifiers ++ rest))).unit.Agrees
      (readOut (.type opening place :: around) (s.facing (modifiers' ++ rest))).unit := by
  have hmodifiers' : ∀ t ∈ modifiers', t.isModifierKeyword := fun t ht => hmodifiers t (hperm.mem_iff.mpr ht)
  have hsame := Modifiers.addAll_eq_of_perm (hperm.map (·.text)) haccess
  by_cases heq : modifiers = modifiers'
  · rw [heq]
    exact ⟨rfl, rfl⟩
  cases hend : leavesNew modifiers rest with
  | false =>
    have hne : modifiers ≠ [] := by rintro rfl; exact heq hperm.nil_eq
    have hne' : modifiers' ≠ [] := by rintro rfl; exact heq hperm.eq_nil
    exact readOut_of_addAll_eq hs hmodifiers hmodifiers' hne hne' hsame hend (hnew ▸ hend)
      (CompilationUnit.alike_self _) opening place around
  | true =>
    -- Both headers end in front of the word, which then belongs to what is behind them.
    obtain ⟨lead, word, rfl, hword, -⟩ := exists_of_leavesNew hend
    obtain ⟨lead', word', rfl, hword', -⟩ := exists_of_leavesNew (hnew ▸ hend)
    have hne : lead ≠ [] := by rintro rfl; exact heq (List.singleton_perm.mp hperm)
    have hne' : lead' ≠ [] := by rintro rfl; exact heq (List.perm_singleton.mp hperm)
    obtain ⟨hkind, htext⟩ := eq_of_isKeyword hword
    obtain ⟨hkind', htext'⟩ := eq_of_isKeyword hword'
    simp only [List.map_append, List.map_singleton, htext, htext', Modifiers.addAll_new] at hsame
    have halike : List.Forall₂ Token.Alike (word :: rest) (word' :: rest) :=
      .cons ⟨hkind.trans hkind'.symm, htext.trans htext'.symm⟩ (CompilationUnit.alike_self _)
    rw [List.append_assoc, List.append_assoc lead']
    exact readOut_of_addAll_eq hs (fun t ht => hmodifiers t (List.mem_append_left _ ht))
      (fun t ht => hmodifiers' t (List.mem_append_left _ ht)) hne hne' hsame (leavesNew_keyword hkind ..)
      (leavesNew_keyword hkind' ..) halike opening place around

/-- No member begins with the word `new` behind its header. -/
theorem memberBehind_new {word : Token} (hword : word.isKeyword "new") (hs : s.peek? = some word)
    (typeDeclaration : TypeReader) (place : Place) (header : Header) :
    memberBehind typeDeclaration place header s = .malformed (s.report (.notAMember "new")) := by
  obtain ⟨kind, text, span⟩ := word
  obtain ⟨rfl, rfl⟩ : kind = .keyword ∧ text = "new" := eq_of_isKeyword hword
  have hpeek : s.cursor.peek? = some ⟨.keyword, "new", span⟩ := hs
  have htype : s.cursor.seesTypeDeclaration = false := by
    rw [Cursor.seesTypeDeclaration, hpeek]
    rfl
  have href : s.eatKeyword? "ref" = none := by
    rw [eatKeyword?, Cursor.eatKeyword?, Cursor.seesKeyword, hpeek]
    rfl
  have hnone : s.type? = none := by
    rw [type?, Cursor.type?, Cursor.typeInside_eq, hpeek]
    rfl
  have htyped : typedMember place header s = .malformed (s.report (.notAMember "new")) := by
    simp only [typedMember, href, Option.elim_none, hnone, hs, Option.elim_some]
  rw [memberBehind, hs, htype, htyped]
  rfl

/-- In front of a bracket the word `new` is reported, and the member that it is in front of is skipped. -/
theorem typeBodyRound_new {word : Token} (hs : s.stalled = false) (hmodifiers : ∀ t ∈ modifiers, t.isModifierKeyword)
    (hword : word.isKeyword "new") (hrest : rest.head?.any (·.opensTupleOrAttribute)) (opening : Position)
    (place : Place) :
    typeBodyRound TypeDeclaration.read opening place (s.facing (modifiers ++ word :: rest)) =
      .again (({ s with cursor := ⟨modifiers.reverse ++ s.cursor.before, word :: rest⟩ } : Reading).report
        (.notAMember "new")).recover := by
  let left : Reading := { s with cursor := ⟨modifiers.reverse ++ s.cursor.before, word :: rest⟩ }
  have hheader : (s.facing (modifiers ++ word :: rest)).header.2 = left := by
    rw [header_facing hmodifiers (leavesNew_keyword (eq_of_isKeyword hword).1 ..),
      Header.readOn_leavesNew _ hword hrest]
  have hmember : (member TypeDeclaration.read place (s.facing (modifiers ++ word :: rest))).settle =
      (left.report (.notAMember "new")).recover := by
    rw [member_eq, hheader, memberBehind_new hword rfl]
    rfl
  have hrecover :=
    ((moving_of_not_stalled (s := left.report (.notAMember "new")) hs).related fun _ => id).recover_advances
      (a := word) rfl (not_isPunctuation_of_isKeyword hword _)
  obtain ⟨t, ht, hkind⟩ : ∃ t, (s.facing (modifiers ++ word :: rest)).peek? = some t ∧ t.kind = .keyword := by
    cases modifiers with
    | nil => exact ⟨word, rfl, (eq_of_isKeyword hword).1⟩
    | cons t modifiers => exact ⟨t, rfl, kind_of_isModifierKeyword (hmodifiers t List.mem_cons_self)⟩
  have hmark := not_isPunctuation_of_kind (t := t) (by rw [hkind]; decide)
  rw [typeBodyRound_of_size_lt ht (hmark _) (hmark _) _ opening, hmember]
  rw [hmember]
  refine Nat.lt_of_lt_of_le hrecover.size_lt ?_
  simp [left, facing, size, Cursor.size, report, reportAt]

end Reading

/-! ### Files -/

namespace CompilationUnit

/-- A file records and reports the same with the modifiers of a member in another order, unless `new` comes to stand in
front of a bracket in one of the orders only. -/
theorem agrees_of_perm {front modifiers modifiers' rest tokens tokens' : List Token} {s : Reading} {opening : Position}
    {place : Place} {around : List Body} (henters : Enters front s opening place around)
    (hmodifiers : ∀ t ∈ modifiers, t.isModifierKeyword) (haccess : Modifiers.IsUnordered (modifiers.map (·.text)))
    (hperm : modifiers.Perm modifiers') (hnew : leavesNew modifiers rest = leavesNew modifiers' rest)
    (halike : List.Forall₂ Token.Alike (front ++ (modifiers ++ rest)) tokens)
    (halike' : List.Forall₂ Token.Alike (front ++ (modifiers' ++ rest)) tokens') :
    (ofTokens tokens).Agrees (ofTokens tokens') := by
  have hfile : (ofTokens (front ++ (modifiers ++ rest))).Agrees (ofTokens (front ++ (modifiers' ++ rest))) := by
    by_cases hne : modifiers = []
    · cases hne
      cases hperm.nil_eq
      exact ⟨rfl, rfl⟩
    · have hhead {modifiers : List Token} (hmodifiers : ∀ t ∈ modifiers, t.isModifierKeyword) (hne : modifiers ≠ []) :
          (modifiers ++ rest).head?.any (·.isModifierKeyword) := by
        obtain ⟨t, more, rfl⟩ := List.exists_cons_of_ne_nil hne
        exact hmodifiers t List.mem_cons_self
      rw [henters.unit (hhead hmodifiers hne), henters.unit (hhead (fun t ht => hmodifiers t (hperm.mem_iff.mpr ht))
        fun hnil => hne (hnil ▸ hperm).eq_nil)]
      exact readOut_agrees_of_perm henters.moving hmodifiers haccess hperm hnew opening place around
  obtain ⟨hentries, hdefects⟩ := entries_of_alike halike
  obtain ⟨hentries', hdefects'⟩ := entries_of_alike halike'
  exact ⟨hentries.symm.trans (hfile.1.trans hentries'), hdefects.symm.trans (hfile.2.trans hdefects')⟩

end CompilationUnit

/-- Behind `class C {` a file goes on with the members of the class. -/
theorem enters_class :
    Enters classOpening (insideClass []) (mark "\x7b").start ⟨1, .classType⟩ [.namespaceBody NamespaceBody.file] where
  moving := rfl
  unit {ahead} _ := by
    have hskip := ((moving_of_not_stalled rfl).typeBody_skip (fun _ => id) (s := insideClass ahead) (mark "\x7b").start
      ⟨1, .classType⟩).1.moving
    have hread : NamespaceBody.file.read ((classBody (insideClass ahead)).skip ";") =
        restOfFile (classBody (insideClass ahead)) := NamespaceBody.read_eq hskip _
    rw [CompilationUnit.ofTokens_class, ← hread]
    rfl

namespace CompilationUnit

/-- A field of a tuple type and the end of its class. -/
private def tupleField : List Token :=
  [mark "(", keyword "int", mark ",", keyword "int", mark ")", identifier "F", mark ";", mark "\x7d"]

private def protectedNew : List Token := [keyword "protected", keyword "new", keyword "internal"]

private def newProtected : List Token := [keyword "new", keyword "internal", keyword "protected"]

theorem agrees_of_perm_tuple :
    (∀ t ∈ protectedNew, t.isModifierKeyword) ∧ Modifiers.IsUnordered (protectedNew.map (·.text)) ∧
      protectedNew.Perm newProtected ∧ leavesNew protectedNew tupleField = leavesNew newProtected tupleField ∧
      (ofTokens (classOpening ++ (protectedNew ++ tupleField))).Agrees
        (ofTokens (classOpening ++ (newProtected ++ tupleField))) := by
  have hmodifiers : ∀ t ∈ protectedNew, t.isModifierKeyword := by decide
  have haccess : Modifiers.IsUnordered (protectedNew.map (·.text)) := by decide
  have hperm : protectedNew.Perm newProtected := by decide
  exact ⟨hmodifiers, haccess, hperm, rfl, agrees_of_perm enters_class hmodifiers haccess hperm rfl (alike_self _)
    (alike_self _)⟩

/-- The field of `class C { new public (int, int) F; }` is recorded, and that of `class C { public new (int, int) F; }`
is reported. -/
theorem not_agrees_new_last :
    let first := ofTokens (classOpening ++ ([keyword "new", keyword "public"] ++ tupleField))
    let last := ofTokens (classOpening ++ ([keyword "public", keyword "new"] ++ tupleField))
    first.entries.map (·.name) = ["C", "F"] ∧ first.errors = [] ∧ last.entries.map (·.name) = ["C"] ∧
      last.errors.map (·.kind) = [.unexpectedToken] := by
  decide +kernel

end CompilationUnit

end CSharpStyle
