import CSharpStyle.Proofs.Braces.CompilationUnit
import CSharpStyle.Proofs.Interfaces.Additions
import CSharpStyle.Proofs.Recording.CompilationUnit

/-!
# Members of interfaces

Whatever a file holds, and whatever in it is malformed, each member that is recorded in an interface was recorded by a
member of the file in the body of that interface. It is public where no access keyword was written, unless it is a
delegate, which is the only one to be left without an accessibility.

* `Reading.Adds.typeBody`: what the body of a type adds.
* `TypeDeclaration.adds`: what types add, by induction on the tokens ahead.
* `CompilationUnit.accessibility_in_interface`: the accessibility of each member of an interface.
-/

namespace CSharpStyle

open Token Reading

namespace Reading

variable {tokens : List Token} {s s' : Reading}

theorem Sound.next (h : s.Sound tokens fun _ => True) (hne : s.cursor.ahead ≠ []) :
    s.next.Sound tokens (fun _ => True) ∧ s.next.size < s.size := by
  have hnext := (h.related fun _ => id).next hne
  exact ⟨sound_of_related hnext.leads.related, hnext.size_lt⟩

theorem Sound.eat (h : s.Sound tokens fun _ => True) {mark : String} (heat : s.eat? mark = some s') :
    s'.Sound tokens (fun _ => True) ∧ s'.size < s.size := by
  rcases (h.related fun _ => id).eat_cases mark with ⟨hs, -⟩ | ⟨t, t', hs, -, hadvance⟩
  · exact absurd (heat.symm.trans hs) nofun
  · obtain rfl := Option.some.inj (heat.symm.trans hs)
    exact ⟨⟨hadvance.leads.related.cursor.2, hadvance.leads.related.stalled.1, trivial⟩, hadvance.size_lt⟩

theorem Sound.name (h : s.Sound tokens fun _ => True) {t : Token} (hname : s.name? = some (t, s')) :
    s'.Sound tokens (fun _ => True) ∧ s'.size < s.size := by
  rcases (h.related fun _ => id).name_cases with ⟨hs, -⟩ | ⟨a, b, u, u', hs, -, -, hadvance⟩
  · exact absurd (hname.symm.trans hs) nofun
  · obtain ⟨-, rfl⟩ := Prod.mk.inj (Option.some.inj (hname.symm.trans hs))
    exact ⟨⟨hadvance.leads.related.cursor.2, hadvance.leads.related.stalled.1, trivial⟩, hadvance.size_lt⟩

end Reading

theorem Outline.lt_of_typeKindOf {o : Outline} {scope : ScopeId} {kind : TypeKind}
    (h : o.typeKindOf scope = some kind) : scope < o.scopes.size := by
  refine Nat.lt_of_not_le fun hle => ?_
  rw [typeKindOf_eq, heading_eq_none hle] at h
  cases h

/-- Types with fewer than `n` tokens ahead add what is accounted for, and themselves where `P` permits it. -/
def TypesAddBelow (tokens : List Token) (n : Nat) : Prop :=
  ∀ {P : Outline → Declaration → Prop} [Admits P] {o : Outline} {s : Reading} {scope : ScopeId} {header : Header},
    (∀ {p : Outline} {d : Declaration}, p.AccountsFor tokens d → P p d) → s.Adds P o →
      s.Sound tokens (fun _ => True) → s.size < n → s.cursor.seesTypeDeclaration →
        PermitsType (o.Admitted P) scope (declaredAccessibility header (s.outline.typeKindOf scope) s) →
          (TypeDeclaration.read scope header s).Adds P o

namespace Reading.Adds

variable {tokens : List Token} {n : Nat} {o : Outline} {s : Reading} {place : Place}

/-! ### Bodies of types -/

/-- Where no type begins, none begins with `delegate`. -/
theorem seesKeyword_delegate (h : ¬s.cursor.seesTypeDeclaration = true) : s.seesKeyword "delegate" = false := by
  refine Bool.eq_false_iff.mpr fun hdelegate => h ?_
  obtain ⟨t, ht, hword⟩ := (Option.any_eq_true _ _).mp hdelegate
  obtain ⟨hkind, htext⟩ := Bool.and_eq_true_iff.mp hword
  rw [Cursor.seesTypeDeclaration, ht]
  simp only [hkind, eq_of_beq htext]
  rfl

/-- A member records itself with its accessibility. -/
theorem member (htypes : TypesAddBelow tokens n) (hs : s.Sound tokens fun _ => True) (hn : s.size < n)
    (hplace : s.outline.typeKindOf place.scope = some place.owner) :
    (Reading.member TypeDeclaration.read place s).settle.Adds (Outline.AccountsForMember tokens place s) s.outline := by
  have hheader : s.header.2.Run (s.outline.Admitted (Outline.AccountsForMember tokens place s)) ⟨[], [], s⟩ [] [] :=
    Run.header (.refl s)
  have hleads := ((hs.related fun _ => id).header).2
  rw [Reading.member_eq]
  by_cases htype : s.header.2.cursor.seesTypeDeclaration = true
  · rw [memberBehind]
    split
    · exact hheader.adds
    · split
      · exact hheader.adds
      · refine htypes .inl hheader.adds (sound_of_related hleads.related) (Nat.lt_of_le_of_lt hleads.size_le hn)
          htype fun _ hscope hkind haccessibility _ _ => .inr ⟨hscope, haccessibility.trans ?_, fun _ => hkind⟩
        rw [memberAccessibility, ← hplace]
        rfl
  · have hdelegate : s.header.2.seesKeyword "delegate" = false := seesKeyword_delegate htype
    have hown : Permits (s.outline.Admitted (Outline.AccountsForMember tokens place s)) place.scope
        (s.header.1.modifiers.accessibilityIn place.owner) := by
      intro d hscope haccessibility p _
      refine .inr ⟨hscope, haccessibility.trans ?_, fun h => absurd (hdelegate.symm.trans h) Bool.false_ne_true⟩
      rw [memberAccessibility, declaredAccessibility, hdelegate]
      rfl
    exact (hheader.memberBehind (fun h => absurd h htype) fun _ => hown).settle.adds

/-- A round of the body of a type adds what is accounted for: the member itself is, by the round. -/
theorem typeBodyRound (htypes : TypesAddBelow tokens n) (hs : s.Sound tokens fun _ => True) (hn : s.size < n)
    (hplace : s.outline.typeKindOf place.scope = some place.owner) (opening : Position) :
    (Reading.typeBodyRound TypeDeclaration.read opening place s).All (Adds (Outline.AccountsFor tokens) s.outline)
      (Adds (Outline.AccountsFor tokens) s.outline) := by
  have hstart : s.Run (s.outline.Admitted (Outline.AccountsFor tokens)) ⟨[], [], s⟩ [] [] := .refl s
  rw [Reading.typeBodyRound]
  split
  · exact (hstart.reportAt _ _).adds
  · split
    · exact hstart.next.adds
    · split
      · exact hstart.next.adds
      · obtain ⟨hkeeps, added, hadded, hmember⟩ := member htypes hs hn hplace
        have hbehind : (Reading.member TypeDeclaration.read place s).settle.Adds (Outline.AccountsFor tokens)
            s.outline := by
          refine ⟨hkeeps, added, hadded, fun d hd => (hmember d hd).elim id ?_⟩
          rintro ⟨hscope, hrecorded⟩ -
          have hlt := Outline.lt_of_typeKindOf hplace
          rw [hscope]
          refine ⟨Nat.lt_of_lt_of_le hlt hkeeps.size_le, fun howner => ?_⟩
          rw [hkeeps.typeKindOf hlt, hplace] at howner
          have howner : place.owner = .interfaceType := Option.some.inj howner
          exact ⟨place, s, hs.inside, hs.moving, howner, ⟨hscope, added, hadded, hd⟩, howner ▸ hrecorded⟩
        exact hbehind.run (Run.progress (.refl _))

theorem typeBody (htypes : TypesAddBelow tokens n) (h : s.Adds (Outline.AccountsFor tokens) o)
    (hs : s.Sound tokens fun _ => True) (hn : s.size < n)
    (hplace : s.outline.typeKindOf place.scope = some place.owner) (opening : Position) :
    (Reading.typeBody TypeDeclaration.read opening place s).Adds (Outline.AccountsFor tokens) o := by
  refine h.trans (rounds_induction (P := fun t => t.Adds (Outline.AccountsFor tokens) s.outline ∧
    t.Sound tokens (fun _ => True) ∧ t.size ≤ s.size) (Q := Adds (Outline.AccountsFor tokens) s.outline) ?_ ?_
    (fun ht => ht.1.run (Run.stall (.refl _))) ⟨.refl, hs, Nat.le_refl _⟩)
  · rintro t u ⟨hadds, hsound, hsize⟩ hround
    have hall := typeBodyRound htypes hsound (Nat.lt_of_le_of_lt hsize hn)
      ((hadds.keeps.typeKindOf (Outline.lt_of_typeKindOf hplace)).trans hplace) opening
    obtain ⟨hsound', hsize'⟩ := sound_of_again (Correspondence.typeBodyRound (Correspondence.types (t.size + 1))
      (hsound.related fun _ => id) (i := place.scope) (j := place.scope) rfl (Nat.lt_succ_self _) rfl) hround
    rw [hround] at hall
    exact ⟨hadds.trans hall, hsound', Nat.le_of_lt (Nat.lt_of_lt_of_le hsize' hsize)⟩
  · rintro t r ⟨hadds, hsound, hsize⟩ hround
    have hall := typeBodyRound htypes hsound (Nat.lt_of_le_of_lt hsize hn)
      ((hadds.keeps.typeKindOf (Outline.lt_of_typeKindOf hplace)).trans hplace) opening
    rw [hround] at hall
    exact hadds.trans hall

variable {P : Outline → Declaration → Prop} [Admits P]

theorem bodyOfType (htypes : TypesAddBelow tokens n)
    (hP : ∀ {p : Outline} {d : Declaration}, p.AccountsFor tokens d → P p d) (h : s.Adds P o)
    (hs : s.Sound tokens fun _ => True) (hn : s.size < n) {inner : ScopeId} {kind : TypeKind}
    (hinner : s.outline.typeKindOf inner = some kind) :
    (Reading.bodyOfType TypeDeclaration.read inner kind s).Adds P o := by
  have hstart : s.Run (o.Admitted P) ⟨[], [], s⟩ [] [] := .refl s
  rw [Reading.bodyOfType]
  split
  · rename_i body heat
    have hbody := hstart.eat heat
    obtain ⟨hsound, hlt⟩ := hs.eat heat
    simp only
    split
    · exact h.run ((hbody.enumBody _ inner).skip ";")
    · have hplace : body.outline.typeKindOf inner = some kind := by
        obtain ⟨c, -, rfl⟩ := Option.map_eq_some_iff.mp heat
        exact hinner
      have hmembers : (Reading.typeBody TypeDeclaration.read s.position ⟨inner, kind⟩ body).Adds
          (Outline.AccountsFor tokens) body.outline :=
        typeBody htypes .refl hsound (Nat.lt_trans hlt hn) hplace s.position
      have hbehind : (Reading.typeBody TypeDeclaration.read s.position ⟨inner, kind⟩ body).Adds P o :=
        (h.run hbody).trans (hmembers.mono hP)
      exact hbehind.run (Run.skip (.refl _) ";")
  · exact h.run (hstart.require ";" _)

theorem namedType (htypes : TypesAddBelow tokens n)
    (hP : ∀ {p : Outline} {d : Declaration}, p.AccountsFor tokens d → P p d) (h : s.Adds P o)
    (hs : s.Sound tokens fun _ => True) (hn : s.size ≤ n) {scope : ScopeId} {header : Header} (word : String)
    (kind : TypeKind)
    (hown : PermitsType (o.Admitted P) scope (typeAccessibility header (s.outline.typeKindOf scope))) :
    (Reading.namedType TypeDeclaration.read word kind scope header s).Adds P o := by
  have hstart : s.Run (o.Admitted P) ⟨[], [], s⟩ [] [] := .refl s
  rw [Reading.namedType_eq]
  split
  · exact h.run (hstart.report _).recover
  · rename_i name behind hname
    obtain ⟨hsound, hlt⟩ := hs.name hname
    have houtline : behind.outline = s.outline := by
      obtain ⟨⟨u, c⟩, -, heq⟩ := Option.map_eq_some_iff.mp hname
      cases heq
      rfl
    have hfront := (hstart.name hname).frontOfBody kind (houtline ▸ hown)
    have hleads := (Correspondence.frontOfBody (hsound.related fun _ => id) (i := scope) (j := scope) rfl kind header
      (a := name) (b := name) rfl).1
    exact bodyOfType htypes hP (h.run hfront) (sound_of_related hleads.related)
      (Nat.lt_of_lt_of_le (Nat.lt_of_le_of_lt hleads.size_le hlt) hn)
      (typeKindOf_frontOfBody kind scope header name behind)

end Reading.Adds

theorem Reading.declaredKind_eq_delegateType_iff {word : String} :
    declaredKind word = .delegateType ↔ word = "delegate" := by
  constructor
  · intro h
    unfold declaredKind at h
    split at h <;> first | rfl | cases h
  · rintro rfl
    rfl

/-- What types add is accounted for. The induction is on the tokens ahead: a type inside another one has fewer. -/
theorem TypeDeclaration.adds (tokens : List Token) (n : Nat) : TypesAddBelow tokens n := by
  induction n with
  | zero => exact fun _ _ _ hn => absurd hn (Nat.not_lt_zero _)
  | succ n ih =>
    intro P _ o s scope header hP h hs hn hsees hown
    have hstart : s.Run (o.Admitted P) ⟨[], [], s⟩ [] [] := .refl s
    rw [TypeDeclaration.read_eq hs.moving, typeDeclarationAt]
    split
    · exact h
    · rename_i t hpeek
      obtain ⟨hnext, hlt⟩ := hs.next (Cursor.ahead_ne_nil_of_peek? hpeek)
      have hn : s.next.size ≤ n := Nat.le_of_lt_succ (Nat.lt_trans hlt hn)
      have hdelegate : s.seesKeyword "delegate" = (t.text == "delegate") := by
        rw [Cursor.seesTypeDeclaration, show s.cursor.peek? = some t from hpeek] at hsees
        rw [seesKeyword, Cursor.seesKeyword, show s.cursor.peek? = some t from hpeek, Option.any_some, Token.isKeyword,
          (Bool.and_eq_true_iff.mp hsees).1, Bool.true_and]
      have hnamed (hkind : declaredKind t.text ≠ .delegateType) :
          PermitsType (o.Admitted P) scope (typeAccessibility header (s.outline.typeKindOf scope)) := by
        have hword : (t.text == "delegate") = false :=
          beq_eq_false_iff_ne.mpr (mt declaredKind_eq_delegateType_iff.mpr hkind)
        rwa [declaredAccessibility, hdelegate, hword] at hown
      split
      · rename_i hkind
        rw [declaredAccessibility, hdelegate, declaredKind_eq_delegateType_iff.mp hkind] at hown
        exact h.run (hstart.next.delegate hown)
      · rename_i hkind
        have hrecord := (hnext.related fun _ => id).move
          (((Correspondence.invariant tokens (fun _ => True) fun _ => id).lockstep s.next.size).skipEither
            (hnext.related fun _ => id).within "class" "struct")
        have hsound : (s.next.move (·.skipEither "class" "struct")).Sound tokens fun _ => True :=
          sound_of_related hrecord.related
        have hbehind : (s.next.move (·.skipEither "class" "struct")).Run (o.Admitted P) ⟨[], [], s⟩ [] [] :=
          hstart.next.move (Cursor.suffix_skipEither _ "class" "struct")
        exact (h.run hbehind).namedType ih hP hsound (Nat.le_trans hrecord.size_le hn) _ _
          (hnamed (by rw [hkind]; decide))
      · rename_i hkind _
        exact (h.run hstart.next).namedType ih hP hnext hn _ _ (hnamed ‹_›)

/-! ### Namespaces -/

/-- The scope is there, and is no body of a type. -/
structure Outline.IsOutside (o : Outline) (scope : ScopeId) : Prop where
  opened : scope < o.scopes.size
  typeKindOf : o.typeKindOf scope = none

theorem Outline.Keeps.isOutside {o p : Outline} (h : o.Keeps p) {scope : ScopeId} (hscope : o.IsOutside scope) :
    p.IsOutside scope :=
  ⟨Nat.lt_of_lt_of_le hscope.opened h.size_le, (h.typeKindOf hscope.opened).trans hscope.typeKindOf⟩

namespace Reading.Adds

variable {tokens : List Token} {o : Outline} {s : Reading} {body : NamespaceBody}

theorem typeOrStatement (hs : s.Sound tokens fun _ => True) {scope : ScopeId} (hscope : s.outline.IsOutside scope) :
    (Reading.typeOrStatement scope s).Adds (Outline.AccountsFor tokens) s.outline := by
  have hstart : s.Run (s.outline.Admitted (Outline.AccountsFor tokens)) ⟨[], [], s⟩ [] [] := .refl s
  rw [Reading.typeOrStatement]
  simp only
  split
  · have hsound := sound_of_related ((hs.related fun _ => id).header).2.related
    refine TypeDeclaration.adds tokens _ id hstart.header.adds hsound (Nat.lt_succ_self _) ‹_› ?_
    intro d hd _ _ p hkeeps _
    rw [hd]
    refine ⟨(hkeeps.isOutside hscope).opened, fun howner => ?_⟩
    rw [(hkeeps.isOutside hscope).typeKindOf] at howner
    cases howner
  · split
    · exact hstart.header.adds
    · exact (Statement.keeps.read hstart scope).adds

/-- The scope of a namespace is no body of a type. -/
theorem isOutside_namespaceName (body : NamespaceBody) (s : Reading) :
    (namespaceName body s).2.outline.IsOutside (namespaceName body s).1 :=
  ⟨Nat.lt_of_lt_of_le (Nat.lt_succ_self _) (Nat.le_of_eq (Outline.size_addScope ..).symm),
    Outline.typeKindOf_addScope ..⟩

/-- A namespace adds what is accounted for, if the bodies of namespaces with fewer tokens ahead do. -/
theorem namespaceDeclaration (hs : s.Sound tokens fun _ => True) (hne : s.cursor.ahead ≠ []) (body : NamespaceBody)
    (hmembers : ∀ {t : Reading} {inner : NamespaceBody}, t.size < s.size → t.Sound tokens (fun _ => True) →
      t.outline.IsOutside inner.scope → (inner.read t).Adds (Outline.AccountsFor tokens) t.outline) :
    (Reading.namespaceDeclaration NamespaceBody.read body s).All (Adds (Outline.AccountsFor tokens) s.outline)
      (Adds (Outline.AccountsFor tokens) s.outline) := by
  have hstart : s.Run (s.outline.Admitted (Outline.AccountsFor tokens)) ⟨[], [], s⟩ [] [] := .refl s
  have hname := hstart.next.takeText fun t => t.isName || t.isPunctuation "." || t.isPunctuation "::"
  have hopen : (namespaceName body s).2.Run (s.outline.Admitted (Outline.AccountsFor tokens)) ⟨[], [], s⟩ [] [] :=
    hname.openScope _ _ _
  have hbehind {behind : Reading} {mark : String} (heat : (namespaceName body s).2.eat? mark = some behind)
      (opening : Option Position) :
      (NamespaceBody.read ⟨(namespaceName body s).1, true, opening⟩ behind).Adds (Outline.AccountsFor tokens)
        s.outline := by
    obtain ⟨hsound, hlt⟩ := hs.namespaceName hne body heat
    have houtline : behind.outline = (namespaceName body s).2.outline := by
      obtain ⟨c, -, rfl⟩ := Option.map_eq_some_iff.mp heat
      rfl
    exact (hopen.eat heat).adds.trans (hmembers hlt hsound (houtline ▸ isOutside_namespaceName body s))
  rw [Reading.namespaceDeclaration]
  simp only
  split
  · exact (hname.report _).recover.adds
  · split
    · exact hbehind ‹_› _
    · split
      · exact hbehind ‹_› _
      · exact (hopen.report _).recover.adds

/-- A round of the body of a namespace adds what is accounted for, if the namespaces inside do. -/
theorem namespaceRound (hs : s.Sound tokens fun _ => True) (hbody : s.outline.IsOutside body.scope)
    (hmembers : ∀ {t : Reading} {inner : NamespaceBody}, t.size < s.size → t.Sound tokens (fun _ => True) →
      t.outline.IsOutside inner.scope → (inner.read t).Adds (Outline.AccountsFor tokens) t.outline) :
    (Reading.namespaceRound NamespaceBody.read body s).All (Adds (Outline.AccountsFor tokens) s.outline)
      (Adds (Outline.AccountsFor tokens) s.outline) := by
  have hstart : s.Run (s.outline.Admitted (Outline.AccountsFor tokens)) ⟨[], [], s⟩ [] [] := .refl s
  rw [Reading.namespaceRound]
  split
  · split
    · exact (hstart.reportAt _ _).adds
    · exact hstart.adds
  · rename_i t hpeek
    have hne := Cursor.ahead_ne_nil_of_peek? hpeek
    split
    · split
      · exact hstart.next.adds
      · exact (hstart.report _).next.adds
    · split
      · exact (hstart.usingDirective body hpeek ‹_›).adds
      · split
        · exact namespaceDeclaration hs hne body hmembers
        · split
          · exact (hstart.statementEnd body.scope).adds
          · exact (typeOrStatement hs hbody).run (Run.progress (.refl _))

end Reading.Adds

/-- What the body of a namespace adds is accounted for. The induction is on the tokens ahead, of which a namespace
inside the body leaves fewer; that of the rounds carries what was added so far. -/
theorem NamespaceBody.adds {tokens : List Token} {s : Reading} (hs : s.Sound tokens fun _ => True)
    {body : NamespaceBody} (hbody : s.outline.IsOutside body.scope) :
    (body.read s).Adds (Outline.AccountsFor tokens) s.outline := by
  induction hsize : s.size using Nat.strongRecOn generalizing s body with
  | ind n ih =>
    have hmembers {t r : Reading} {inner : NamespaceBody} (ht : t.size ≤ s.size) (hr : r.size < t.size)
        (hsound : r.Sound tokens fun _ => True) (hinner : r.outline.IsOutside inner.scope) :
        (inner.read r).Adds (Outline.AccountsFor tokens) r.outline :=
      ih r.size (hsize ▸ Nat.lt_of_lt_of_le hr ht) hsound hinner rfl
    rw [NamespaceBody.read_eq hs.moving]
    refine rounds_induction (P := fun t => t.Adds (Outline.AccountsFor tokens) s.outline ∧
      t.Sound tokens (fun _ => True) ∧ t.size ≤ s.size) (Q := Reading.Adds (Outline.AccountsFor tokens) s.outline)
      ?_ ?_ (fun ht => ht.1.run (Reading.Run.stall (.refl _))) ⟨.refl, hs, Nat.le_refl _⟩
    · rintro t u ⟨hadds, hsound, hle⟩ hround
      have hall := Reading.Adds.namespaceRound hsound (hadds.keeps.isOutside hbody) (hmembers hle)
      obtain ⟨hsound', hlt⟩ := sound_of_again (Correspondence.namespaceRound (n := t.size)
        (fun h hinner _ => Correspondence.namespaceBody h hinner) (hsound.related fun _ => id) body.alike_self
        (Nat.le_refl _)) hround
      rw [hround] at hall
      exact ⟨hadds.trans hall, hsound', Nat.le_of_lt (Nat.lt_of_lt_of_le hlt hle)⟩
    · rintro t r ⟨hadds, hsound, hle⟩ hround
      have hall := Reading.Adds.namespaceRound hsound (hadds.keeps.isOutside hbody) (hmembers hle)
      rw [hround] at hall
      exact hadds.trans hall

namespace CompilationUnit

/-- Whatever is recorded as a member of an interface was recorded by a member that was read in the body of an interface.
It has the accessibility that was written, and is public where none was written, unless that member is a delegate:
the declarations of unspecified accessibility are the delegates without an access keyword. -/
theorem accessibility_in_interface (tokens : List Token) {d : Declaration}
    (hd : d ∈ (ofTokens tokens).outline.declarations.toList) (hmember : d.kind.isMember)
    (howner : (ofTokens tokens).outline.typeKindOf d.scope = some .interfaceType) :
    ∃ (place : Place) (s : Reading), s.cursor.Over tokens ∧ place.owner = .interfaceType ∧ RecordsMember place s d ∧
      (d.accessibility = s.header.1.modifiers.accessibility ∨
        s.header.1.modifiers.accessibility = .unspecified ∧ d.accessibility = .isPublic) ∧
      (d.accessibility = .unspecified ↔
        d.kind = .type ∧ s.header.2.seesKeyword "delegate" ∧ s.header.1.modifiers.accessibility = .unspecified) := by
  have hfile : (NamespaceBody.file.read (.ofTokens tokens)).Adds (Outline.AccountsFor tokens) .empty :=
    NamespaceBody.adds (s := .ofTokens tokens) ⟨rfl, rfl, trivial⟩ ⟨Nat.zero_lt_one, rfl⟩
  obtain ⟨-, added, hadded, haccounts⟩ := hfile
  have hd : d ∈ added := by rwa [ofTokens, hadded] at hd
  obtain ⟨place, s, hover, -, hplace, hrecords, haccessibility, hkind⟩ := (haccounts d hd hmember).2 howner
  rw [memberAccessibility_interfaceType] at haccessibility
  refine ⟨place, s, hover, hplace, hrecords, ?_, ?_⟩
  · split at haccessibility
    · exact .inr ⟨(‹_ ∧ _› : _ ∧ _).1, haccessibility⟩
    · exact .inl haccessibility
  · constructor
    · intro hunspecified
      rw [haccessibility, ite_eq_iff] at hunspecified
      obtain ⟨-, hpublic⟩ | ⟨hnot, hwritten⟩ := hunspecified
      · cases hpublic
      · have hdelegate : s.header.2.seesKeyword "delegate" = true := Bool.of_not_eq_false fun h => hnot ⟨hwritten, h⟩
        exact ⟨hkind hdelegate, hdelegate, hwritten⟩
    · rintro ⟨-, hdelegate, hwritten⟩
      rw [haccessibility, if_neg (fun h => absurd (hdelegate.symm.trans h.2) (by decide)), hwritten]

/-- The tokens of `interface I { int P { get; } }`. -/
private def interfaceOfProperty : List Token :=
  [keyword "interface", identifier "I", mark "\x7b", keyword "int", identifier "P", mark "\x7b", identifier "get",
    mark ";", mark "\x7d", mark "\x7d"]

/-- What is recorded of its property, which is public without an access keyword. -/
private def declaredProperty : Declaration :=
  { name := "P", role := .publicMember, kind := .property, scope := 1, position := (identifier "P").start,
    accessibility := .isPublic }

theorem accessibility_in_interface_property :
    let unit := ofTokens interfaceOfProperty
    declaredProperty ∈ unit.outline.declarations.toList ∧ declaredProperty.kind.isMember ∧
      unit.outline.typeKindOf declaredProperty.scope = some .interfaceType ∧
      ∃ (place : Place) (s : Reading), s.cursor.Over interfaceOfProperty ∧ place.owner = .interfaceType ∧
        RecordsMember place s declaredProperty ∧
        (declaredProperty.accessibility = s.header.1.modifiers.accessibility ∨
          s.header.1.modifiers.accessibility = .unspecified ∧ declaredProperty.accessibility = .isPublic) ∧
        (declaredProperty.accessibility = .unspecified ↔
          declaredProperty.kind = .type ∧ s.header.2.seesKeyword "delegate" ∧
            s.header.1.modifiers.accessibility = .unspecified) := by
  have hmem : declaredProperty ∈ (ofTokens interfaceOfProperty).outline.declarations.toList := by decide +kernel
  have howner : (ofTokens interfaceOfProperty).outline.typeKindOf declaredProperty.scope = some .interfaceType := by
    decide +kernel
  exact ⟨hmem, rfl, howner, accessibility_in_interface interfaceOfProperty hmem rfl howner⟩

/-- The delegate of `interface I { delegate void D(); }` is recorded with an unspecified accessibility. -/
theorem unspecified_delegate :
    let unit := ofTokens [keyword "interface", identifier "I", mark "\x7b", keyword "delegate", keyword "void",
      identifier "D", mark "(", mark ")", mark ";", mark "\x7d"]
    ∃ d ∈ unit.outline.declarations.toList, d.name = "D" ∧ d.kind = .type ∧
      unit.outline.typeKindOf d.scope = some .interfaceType ∧ d.accessibility = .unspecified := by
  decide +kernel

end CompilationUnit

end CSharpStyle
