import CSharpStyle.Proofs.ExplicitMembers.Reading

/-!
# Explicit implementations in a type

Methods and properties that implement a member of an interface by name are read without a defect, whatever was read
before: the member itself is not recorded, but its scope is, with the parameters. An indexer is always reported, and
nothing of it is recorded, because the reader stops in front of its word `this`. A method is reported if one of its
parameters is of a type called `scoped`, as this word is a modifier.

* `ExplicitMember.typeBodyRound_eq`: what one round of the reader of a type's body makes of such a member.
* `ExplicitMember.classBody_flawed`: a class is reported with its parameters of types called `scoped`.
* `CompilationUnit.ofTokens_explicit`: a class without them.
* `ExplicitMember.read_iff`: all together, and when nothing is reported.
-/

namespace CSharpStyle

open Token Reading ExplicitMember

/-! ### Defects found before -/

/-- Readings over the same tokens, of which the first has found more defects before. -/
def Correspondence.behind (tokens : List Token) (front : Array StructureError) : Correspondence :=
  { Correspondence.invariant tokens (fun _ => True) fun _ => id with
    errors := fun errors errors' => errors = front ++ errors'
    report := by
      rintro errors errors' p q defect rfl rfl
      exact Array.append_push.symm }

/-- What a round of the reader of members does has nothing to do with the defects found before. -/
theorem Reading.typeBodyRound_behind {s t : Reading} (hs : s.stalled = false) (opening : Position) (place : Place)
    (h : typeBodyRound TypeDeclaration.read opening place { s with errors := #[] } = .again t) :
    typeBodyRound TypeDeclaration.read opening place s = .again { t with errors := s.errors ++ t.errors } := by
  let C := Correspondence.behind (s.cursor.before.reverse ++ s.cursor.ahead) s.errors
  have hstart : C.Related s { s with errors := #[] } :=
    ⟨⟨rfl, rfl⟩, rfl, show s.errors = s.errors ++ #[] from Array.append_empty.symm, hs, hs⟩
  have hround := Correspondence.typeBodyRound (o := place.owner) (Correspondence.types (s.size + 1)) hstart
    (i := place.scope) (j := place.scope) rfl (Nat.lt_succ_self _) (p := opening) (q := opening) rfl
  rw [h] at hround
  generalize hresult : typeBodyRound TypeDeclaration.read opening place s = result at hround
  cases hround with
  | @again u t hagain =>
    obtain ⟨⟨hcursor, -⟩, houtline, herrors, hstalled, hstalled'⟩ := hagain.leads.related
    obtain ⟨cursor, outline, errors, stalled⟩ := u
    simp only at hcursor houtline hstalled herrors
    rw [hcursor, show outline = t.outline from houtline, hstalled, show errors = s.errors ++ t.errors from herrors,
      ← hstalled']

/-! ### One member -/

namespace ExplicitMember

variable (m : ExplicitMember) {s : Reading} {rest : List Token} {o : Outline}

theorem defects_eq_nil_iff : m.defects = [] ↔ m.isIndexer = false := by
  cases m <;> simp [defects, isIndexer]

theorem record_contents (more : Contents) (scope : ScopeId) (o : Outline) :
    (m.contents more).record scope o = more.record scope ((m.contents .done).record scope o) := by
  cases m <;> rfl

theorem exists_tokens_eq : ∃ t more, m.tokens = t :: more ∧ t.kind ≠ .punctuation := by
  cases m with
  | method head | property head | indexer head =>
    exact ⟨head.type.token, _, rfl, CoreGrammar.kind_ne_of_isType head.type.isName_or_isBuiltInType⟩

theorem settle_member (hscoped : m.isScoped = false) (h : s.Clean (m.tokens ++ rest) o)
    (hrest : ∀ t ∈ rest.head?, t.isPunctuation "=" = false) (place : Place) :
    ∃ d : Cursor, d.ahead = rest ∧ (member TypeDeclaration.read place s).settle =
      ⟨d, (m.contents .done).record place.scope o, m.defects.toArray, false⟩ := by
  have hclean {t : Reading} {o : Outline} (ht : t.Clean rest o) :
      ∃ d : Cursor, d.ahead = rest ∧ t = ⟨d, o, #[], false⟩ := by
    obtain ⟨cursor, outline, errors, stalled⟩ := t
    obtain ⟨hahead, rfl, rfl, rfl⟩ := ht
    exact ⟨cursor, hahead, rfl⟩
  cases m with
  | method head name parentheses parameters braces =>
    have hscoped : ∀ p ∈ parameters.list, p.isScoped = false := by simpa [isScoped] using hscoped
    exact hclean (h.explicitMethod TypeDeclaration.read head name parentheses parameters braces hscoped place)
  | property head name accessors =>
    exact hclean (h.explicitProperty TypeDeclaration.read head name accessors hrest place)
  | indexer head word brackets parameters accessors =>
    exact h.explicitIndexer TypeDeclaration.read head word brackets parameters accessors place

/-- A member that consumes a token is read by a round, whatever was reported before. -/
theorem typeBodyRound_of_member (hs : s.stalled = false) (h : s.ahead = m.tokens ++ rest) {place : Place} {t : Reading}
    (hread : (member TypeDeclaration.read place { s with errors := #[] }).settle = t) (hless : t.size < s.size)
    (opening : Position) :
    typeBodyRound TypeDeclaration.read opening place s = .again { t with errors := s.errors ++ t.errors } := by
  obtain ⟨u, more, htokens, hkind⟩ := m.exists_tokens_eq
  have hpeek : s.peek? = some u := by
    rw [htokens] at h
    exact congrArg List.head? h
  refine typeBodyRound_behind hs opening place ?_
  rw [typeBodyRound_of_size_lt (s := { s with errors := #[] }) hpeek (not_isPunctuation_of_kind hkind _)
    (not_isPunctuation_of_kind hkind _) (hread ▸ hless) opening, hread]

/-- A round reads the member to its end. What is recorded and reported of it does not depend on what was before. -/
theorem typeBodyRound_eq (hscoped : m.isScoped = false) (hs : s.stalled = false) (h : s.ahead = m.tokens ++ rest)
    (hrest : ∀ t ∈ rest.head?, t.isPunctuation "=" = false) (opening : Position) (place : Place) :
    ∃ d : Cursor, d.ahead = rest ∧ typeBodyRound TypeDeclaration.read opening place s =
      .again ⟨d, (m.contents .done).record place.scope s.outline, s.errors ++ m.defects.toArray, false⟩ := by
  have hclean : Clean (m.tokens ++ rest) s.outline { s with errors := #[] } := ⟨h, rfl, rfl, hs⟩
  obtain ⟨d, hd, hread⟩ := m.settle_member hscoped hclean hrest place
  obtain ⟨t, more, htokens, -⟩ := m.exists_tokens_eq
  refine ⟨d, hd, m.typeBodyRound_of_member hs h hread ?_ opening⟩
  rw [show s.size = (m.tokens ++ rest).length from congrArg List.length h, htokens, List.length_append,
    List.length_cons]
  show d.ahead.length < _
  rw [hd]
  omega

/-- A round reports a parameter of a type called `scoped`. -/
theorem typeBodyRound_scoped (hscoped : m.isScoped) (hs : s.stalled = false) (h : s.ahead = m.tokens ++ rest)
    (opening : Position) (place : Place) :
    ∃ t, s.Flawed t ∧ typeBodyRound TypeDeclaration.read opening place s = .again t := by
  have hclean : Clean (m.tokens ++ rest) s.outline { s with errors := #[] } := ⟨h, rfl, rfl, hs⟩
  cases m with
  | method head name parentheses parameters braces =>
    obtain ⟨hless, hflawed⟩ := hclean.scopedMethod TypeDeclaration.read head name parentheses parameters braces
      (List.any_eq_true.mp hscoped) place
    let t := (member TypeDeclaration.read place { s with errors := #[] }).settle
    have herrors : s.errors ++ t.errors ≠ #[] := by
      simp [t, hflawed.errors]
    exact ⟨{ t with errors := s.errors ++ t.errors }, ⟨herrors, hflawed.moving, hflawed.size⟩,
      typeBodyRound_of_member _ hs h rfl hless opening⟩
  | property | indexer => cases hscoped

/-- A member or the brace behind all members gives no property its value. -/
theorem head_flatMap_tokens (members : List ExplicitMember) :
    ∀ t ∈ (members.flatMap (·.tokens) ++ [mark "\x7d"]).head?, t.isPunctuation "=" = false := by
  cases members with
  | nil => rintro t ⟨⟩; rfl
  | cons m members =>
    obtain ⟨t, more, htokens, hkind⟩ := m.exists_tokens_eq
    rw [List.flatMap_cons, htokens]
    rintro u ⟨⟩
    exact not_isPunctuation_of_kind hkind "="

/-- The members of a class are read one by one. -/
theorem exists_classBody_eq (members : List ExplicitMember) (hmembers : ∀ m ∈ members, m.isScoped = false)
    (hs : s.stalled = false) (h : s.ahead = members.flatMap (·.tokens) ++ [mark "\x7d"]) :
    ∃ d : Cursor, d.ahead = [mark "\x7d"] ∧ classBody s =
      classBody ⟨d, (members.foldr contents .done).record 1 s.outline,
        s.errors ++ (members.flatMap (·.defects)).toArray, false⟩ := by
  induction members generalizing s with
  | nil =>
    obtain ⟨cursor, outline, errors, stalled⟩ := s
    obtain rfl : stalled = false := hs
    exact ⟨cursor, h, by simp [Contents.record]⟩
  | cons m members ih =>
    rw [List.flatMap_cons, List.append_assoc] at h
    obtain ⟨hm, hmembers⟩ := List.forall_mem_cons.mp hmembers
    obtain ⟨d, hd, hround⟩ := m.typeBodyRound_eq hm hs h (head_flatMap_tokens members) (mark "\x7b").start
      ⟨1, .classType⟩
    obtain ⟨e, he, hread⟩ := ih hmembers (s := ⟨d, _, _, false⟩) rfl hd
    refine ⟨e, he, ?_⟩
    rw [(classBody_of_again hs hround).1, hread, List.foldr_cons, m.record_contents (members.foldr contents .done)]
    simp

/-- What is reported of a parameter in the class stays reported. -/
theorem classBody_flawed (members : List ExplicitMember) (hmembers : ∃ m ∈ members, m.isScoped)
    (hs : s.stalled = false) (h : s.ahead = members.flatMap (·.tokens) ++ [mark "\x7d"]) : s.Flawed (classBody s) := by
  induction members generalizing s with
  | nil =>
    obtain ⟨m, hm, -⟩ := hmembers
    cases hm
  | cons m members ih =>
    rw [List.flatMap_cons, List.append_assoc] at h
    by_cases hscoped : m.isScoped
    · obtain ⟨t, ht, hround⟩ := m.typeBodyRound_scoped hscoped hs h (mark "\x7b").start ⟨1, .classType⟩
      rw [(classBody_of_again hs hround).1]
      exact ht.leads fun hsound => hsound.classBody fun _ _ => Array.push_ne_empty
    · have hothers : ∃ m ∈ members, m.isScoped := by
        obtain ⟨m', hm', hscoped'⟩ := hmembers
        rcases List.mem_cons.mp hm' with rfl | hm'
        · exact absurd hscoped' hscoped
        · exact ⟨m', hm', hscoped'⟩
      obtain ⟨d, hd, hround⟩ := m.typeBodyRound_eq (Bool.eq_false_iff.mpr hscoped) hs h (head_flatMap_tokens members)
        (mark "\x7b").start ⟨1, .classType⟩
      obtain ⟨hread, -, hsize⟩ := classBody_of_again hs hround
      rw [hread]
      exact (ih hothers (s := ⟨d, _, _, false⟩) rfl hd).mono (Nat.le_of_lt hsize)

end ExplicitMember

/-! ### Classes -/

/-- What `class C` holds in its file. -/
def Contents.ofClass (members : Contents) : Contents :=
  .declaration { name := "C", role := .typeName, kind := .type, position := (identifier "C").start }
    (.scope .typeBody (some "C") (some .classType) members .done)

/-- A class of explicit implementations is recorded with the scopes of its methods and properties, and reported with
its indexers. -/
theorem CompilationUnit.ofTokens_explicit {members : List ExplicitMember}
    (hmembers : ∀ m ∈ members, m.isScoped = false) :
    ofTokens (classFile (members.flatMap (·.tokens))) =
      ⟨Outline.ofContents (.ofClass (members.foldr contents .done)), members.flatMap (·.defects)⟩ := by
  obtain ⟨d, hd, hbody⟩ := exists_classBody_eq members hmembers
    (s := insideClass (members.flatMap (·.tokens) ++ [mark "\x7d"])) rfl rfl
  rw [ofTokens_classFile, hbody, restOfFile_closing (s := ⟨d, _, _, _⟩) hd, ← Contents.record_empty]
  simp [insideClass, next, move]
  rfl

namespace ExplicitMember

/-- In front of any tokens but `=`, in any type and whatever was read before, an explicit implementation is read to its
end, the scope of a method or property is recorded with its parameters, and exactly the indexers are reported, unless a
parameter of the method is of a type called `scoped`. A class of such members is read without a defect if and only if
none of them is an indexer and no method has such a parameter. -/
theorem read_iff (members : List ExplicitMember) :
    (∀ m ∈ members, m.isScoped = false → ∀ {s : Reading} {rest : List Token} (opening : Position) (place : Place),
      s.stalled = false → s.ahead = m.tokens ++ rest → (∀ t ∈ rest.head?, t.isPunctuation "=" = false) →
        ∃ d : Cursor, d.ahead = rest ∧ typeBodyRound TypeDeclaration.read opening place s =
          .again ⟨d, (m.contents .done).record place.scope s.outline, s.errors ++ m.defects.toArray, false⟩) ∧
    let unit := CompilationUnit.ofTokens (classFile (members.flatMap (·.tokens)))
    ((∀ m ∈ members, m.isScoped = false) →
      unit.outline = Outline.ofContents (.ofClass (members.foldr contents .done))) ∧
    (unit.errors = [] ↔ ∀ m ∈ members, m.isIndexer = false ∧ m.isScoped = false) := by
  refine ⟨fun m _ hscoped s rest opening place hs h hrest => m.typeBodyRound_eq hscoped hs h hrest opening place,
    fun hmembers => ?_, fun herrors => ?_, fun hmembers => ?_⟩
  · rw [CompilationUnit.ofTokens_explicit hmembers]
  · have hmembers : ∀ m ∈ members, m.isScoped = false := by
      intro m hm
      refine Bool.eq_false_iff.mpr fun hscoped => ?_
      have hflawed := classBody_flawed members ⟨m, hm, hscoped⟩
        (s := insideClass (members.flatMap (·.tokens) ++ [mark "\x7d"])) rfl rfl
      have hsound : (classBody (insideClass _)).Sound _ (· ≠ #[]) := ⟨rfl, hflawed.moving, hflawed.errors⟩
      rw [CompilationUnit.ofTokens_classFile] at herrors
      exact (hsound.restOfFile fun _ _ => Array.push_ne_empty).errors (Array.toList_eq_nil_iff.mp herrors)
    rw [CompilationUnit.ofTokens_explicit hmembers] at herrors
    exact fun m hm => ⟨m.defects_eq_nil_iff.mp (List.flatMap_eq_nil_iff.mp herrors m hm), hmembers m hm⟩
  · rw [CompilationUnit.ofTokens_explicit fun m hm => (hmembers m hm).2]
    exact List.flatMap_eq_nil_iff.mpr fun m hm => m.defects_eq_nil_iff.mpr (hmembers m hm).1

/-- The beginning `int N.IFoo<T>.` of a member. -/
private def genericHead : Head where
  type := .builtIn "int" default (by decide)
  qualifier :=
    { first := ⟨"N", default⟩
      others := [(⟨default⟩, ⟨"IFoo", default⟩)]
      arguments := .some ⟨default⟩ (.word (identifier "T") (by decide) .done) ⟨default⟩
      dot := ⟨default⟩ }

/-- The parameters `int i, T t`. -/
private def twoParameters : Parameters where
  first := ⟨.builtIn "int" default (by decide), ⟨"i", default⟩⟩
  others := [(⟨default⟩, ⟨.named ⟨"T", default⟩, ⟨"t", default⟩⟩)]

/-- The method `int N.IFoo<T>.M(int i, T t) { }`. -/
private def genericMethod : ExplicitMember :=
  .method genericHead ⟨"M", default⟩ ⟨⟨default⟩, ⟨default⟩⟩ twoParameters ⟨⟨default⟩, ⟨default⟩⟩

/-- A method is read in front of the brace that closes its class, and its class without a defect. -/
theorem read_iff_method :
    let s := insideClass (genericMethod.tokens ++ [mark "\x7d"])
    genericMethod.isScoped = false ∧ s.stalled = false ∧ s.ahead = genericMethod.tokens ++ [mark "\x7d"] ∧
      (∀ t ∈ [mark "\x7d"].head?, t.isPunctuation "=" = false) ∧
      (∃ d : Cursor, d.ahead = [mark "\x7d"] ∧
        typeBodyRound TypeDeclaration.read (mark "\x7b").start ⟨1, .classType⟩ s =
          .again ⟨d, (genericMethod.contents .done).record 1 s.outline, s.errors ++ #[], false⟩) ∧
      (CompilationUnit.ofTokens (classFile genericMethod.tokens)).errors = [] := by
  intro s
  have hahead : s.ahead = genericMethod.tokens ++ [mark "\x7d"] := rfl
  have hrest : ∀ t ∈ [mark "\x7d"].head?, t.isPunctuation "=" = false := by
    rintro t ⟨⟩
    rfl
  have hscoped : genericMethod.isScoped = false := by decide
  obtain ⟨hround, -, hclass⟩ := read_iff [genericMethod]
  refine ⟨hscoped, rfl, hahead, hrest, hround _ List.mem_cons_self hscoped _ _ rfl hahead hrest, ?_⟩
  have herrors := hclass.mpr (by rintro m (_ | ⟨_, ⟨⟩⟩); exact ⟨rfl, hscoped⟩)
  simpa only [List.flatMap_singleton] using herrors

/-- The indexer `int N.IFoo<T>.this[int i, T t] { get; set; }`. -/
private def genericIndexer : ExplicitMember :=
  .indexer genericHead ⟨default⟩ ⟨⟨default⟩, ⟨default⟩⟩ twoParameters
    ⟨⟨⟨default⟩, ⟨default⟩⟩, ⟨default, ⟨default⟩⟩, ⟨default, ⟨default⟩⟩⟩

/-- The indexer of an interface is reported, and nothing of it is recorded. -/
theorem not_read_indexer :
    let unit := CompilationUnit.ofTokens (classFile genericIndexer.tokens)
    unit.errors.map (·.kind) = [.unexpectedToken] ∧ unit.entries.map (·.name) = ["C"] := by
  decide +kernel

end ExplicitMember

end CSharpStyle
