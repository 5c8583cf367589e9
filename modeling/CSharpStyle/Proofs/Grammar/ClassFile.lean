import CSharpStyle.Proofs.Correspondence.Shift

/-!
# Files that consist of a class

What is recorded of `class C { … }` is what the reader of the class's body records behind the opening brace.
-/

namespace CSharpStyle

namespace Token

/-- A keyword at no particular place. -/
def keyword (word : String) : Token := { kind := .keyword, text := word, span := default }

def identifier (name : String) : Token := { kind := .identifier, text := name, span := default }

def mark (text : String) : Token := { kind := .punctuation, text, span := default }

end Token

open Token

/-- The tokens of `class C { … }`. -/
def classFile (body : List Token) : List Token :=
  keyword "class" :: identifier "C" :: mark "\x7b" :: (body ++ [mark "\x7d"])

/-- The tokens of `class C {`. -/
def classOpening : List Token := [keyword "class", identifier "C", mark "\x7b"]

/-- The outline in front of the body of the class. -/
def Outline.ofClass : Outline :=
  ((Outline.empty.declare Outline.root
    { name := "C", role := .typeName, kind := .type, position := (identifier "C").start }).addScope
    .typeBody (some "C") (some .classType) Outline.root).2

namespace Reading

/-- The reading in front of the body of the class. -/
def insideClass (ahead : List Token) : Reading where
  cursor := ⟨[mark "\x7b", identifier "C", keyword "class"], ahead⟩
  outline := .ofClass
  errors := #[]

/-- Reads the body of the class. -/
def classBody (s : Reading) : Reading :=
  typeBody TypeDeclaration.read (mark "\x7b").start ⟨1, .classType⟩ s

/-- Reads what stands behind the first type of a file. -/
def restOfFile (s : Reading) : Reading :=
  rounds size (namespaceRound NamespaceBody.read NamespaceBody.file) stall (s.skip ";")

/-- Without attributes and modifiers the header is empty. -/
theorem header_eq {s : Reading} (h : Header.step? {} s.cursor = none) : s.header = ({}, s) := by
  rw [header, Header.read, Header.readOn_eq, h]

/-- The reading behind the name of the class. -/
private def behindName (ahead : List Token) : Reading :=
  { insideClass [] with cursor := ⟨[identifier "C", keyword "class"], mark "\x7b" :: ahead⟩ }

theorem typeDeclaration_class (ahead : List Token) :
    TypeDeclaration.read Outline.root {} (.ofTokens (classOpening ++ ahead)) =
      (classBody (insideClass ahead)).skip ";" := by
  have hskip : (behindName ahead).move (.skipUntil isBodyMark) = behindName ahead := by
    rw [move, show (behindName ahead).cursor.skipUntil isBodyMark = (behindName ahead).cursor from
      Cursor.skipMany_of_none rfl]
  calc TypeDeclaration.read Outline.root {} (.ofTokens (classOpening ++ ahead))
      = typeDeclarationAt TypeDeclaration.read Outline.root {} (.ofTokens (classOpening ++ ahead)) :=
        TypeDeclaration.read_eq rfl ..
    _ = bodyOfType TypeDeclaration.read 1 .classType ((behindName ahead).move (.skipUntil isBodyMark)) := rfl
    _ = bodyOfType TypeDeclaration.read 1 .classType (behindName ahead) := by rw [hskip]
    _ = (classBody (insideClass ahead)).skip ";" := rfl

end Reading

/-! ### Corresponding files -/

namespace Correspondence

variable {C : Correspondence} {s t : Reading}

theorem classBody (h : C.Related s t) (hij : C.scopes s.outline t.outline 1 1)
    (hpq : C.positions (mark "\x7b").start (mark "\x7b").start) :
    C.Leads s t (Reading.classBody s) (Reading.classBody t) :=
  typeBody (types (s.size + 1)) h hij (Nat.lt_succ_self _) hpq

theorem restOfFile (h : C.Related s t) (hij : C.scopes s.outline t.outline Outline.root Outline.root) :
    C.Leads s t (Reading.restOfFile s) (Reading.restOfFile t) := by
  have hskip := h.skip ";"
  refine hskip.trans (rounds_leads hskip.related fun {s' t'} h' => ?_)
  have hbody : NamespaceBody.file.Alike C.positions (C.scopes s'.outline t'.outline) NamespaceBody.file :=
    ⟨h'.scopes (hskip.scopes hij), rfl, .none⟩
  exact (namespaceRound (n := s'.size) (fun h hbody _ => namespaceBody h hbody) h'.related hbody
    (Nat.le_refl _)).imp id fun hdone => hdone.1

end Correspondence

namespace Reading

variable {tokens : List Token} {E : Array StructureError → Prop} {s t : Reading}

section

variable (hpush : ∀ {errors : Array StructureError} (e : StructureError), E errors → E (errors.push e))

include hpush

theorem Sound.typeBody (h : s.Sound tokens E) (opening : Position) (place : Place) :
    (typeBody TypeDeclaration.read opening place s).Sound tokens E ∧
      (Reading.typeBody TypeDeclaration.read opening place s).size ≤ s.size := by
  have hleads := Correspondence.typeBody (i := place.scope) (o := place.owner) (p := opening)
    (Correspondence.types (s.size + 1)) (h.related hpush) rfl (Nat.lt_succ_self _) rfl
  exact ⟨sound_of_related hleads.related, hleads.size_le⟩

theorem Sound.classBody (h : s.Sound tokens E) :
    (classBody s).Sound tokens E ∧ (Reading.classBody s).size ≤ s.size :=
  h.typeBody hpush (mark "\x7b").start ⟨1, .classType⟩

/-- The body of a type may have a semicolon behind it. -/
theorem Sound.typeBody_skip (h : s.Sound tokens E) (opening : Position) (place : Place) :
    ((Reading.typeBody TypeDeclaration.read opening place s).skip ";").Sound tokens E ∧
      ((Reading.typeBody TypeDeclaration.read opening place s).skip ";").size ≤ s.size := by
  obtain ⟨hbody, hle⟩ := h.typeBody hpush opening place
  have hskip := (hbody.related hpush).skip ";"
  exact ⟨sound_of_related hskip.related, Nat.le_trans hskip.size_le hle⟩

theorem Sound.recover (h : s.Sound tokens E) : (recover s).Sound tokens E ∧ (Reading.recover s).size ≤ s.size := by
  have hleads := (h.related hpush).recover
  exact ⟨sound_of_related hleads.related, hleads.size_le⟩

theorem Sound.restOfFile (h : s.Sound tokens E) : (restOfFile s).Sound tokens E := by
  have hleads := Correspondence.restOfFile (h.related hpush) (show Outline.root = Outline.root from rfl)
  exact sound_of_related hleads.related

end

/-- Behind a round that goes on the rest of the body of a type is read. -/
theorem typeBody_of_again (hs : s.stalled = false) {opening : Position} {place : Place}
    (h : typeBodyRound TypeDeclaration.read opening place s = .again t) :
    typeBody TypeDeclaration.read opening place s = typeBody TypeDeclaration.read opening place t ∧
      t.Sound (s.cursor.before.reverse ++ s.cursor.ahead) (fun _ => True) ∧ t.size < s.size := by
  obtain ⟨hsound, hsize⟩ := sound_of_again (Correspondence.typeBodyRound (Correspondence.types (s.size + 1))
    ((moving_of_not_stalled hs).related fun _ => id) rfl (Nat.lt_succ_self _) rfl) h
  exact ⟨rounds_of_again h hsize, hsound, hsize⟩

theorem classBody_of_again (hs : s.stalled = false)
    (h : typeBodyRound TypeDeclaration.read (mark "\x7b").start ⟨1, .classType⟩ s = .again t) :
    classBody s = classBody t ∧ t.stalled = false ∧ t.size < s.size := by
  obtain ⟨hread, hsound, hsize⟩ := typeBody_of_again hs h
  exact ⟨hread, hsound.moving, hsize⟩

/-- Behind a round that goes on the rest of the namespace or the file is read. -/
theorem namespaceBody_of_again (hs : s.stalled = false) {body : NamespaceBody}
    (h : namespaceRound NamespaceBody.read body s = .again t) :
    body.read s = body.read t ∧ t.Sound (s.cursor.before.reverse ++ s.cursor.ahead) fun _ => True := by
  obtain ⟨hsound, hsize⟩ := sound_of_again (Correspondence.namespaceRound (n := s.size)
    (fun h hbody _ => Correspondence.namespaceBody h hbody) ((moving_of_not_stalled hs).related fun _ => id)
    body.alike_self (Nat.le_refl _)) h
  rw [NamespaceBody.read_eq hs, NamespaceBody.read_eq hsound.moving]
  exact ⟨rounds_of_again h hsize, hsound⟩

/-- A reader that consumes a token needs no guard. -/
theorem progress_of_size_lt {read : Reading → Reading} (h : (read s).size < s.size) : s.progress read = read s := by
  have hstill : s.cursor.isStill (read s).cursor = false := by
    rw [Cursor.isStill, beq_eq_false_iff_ne.mpr (show (read s).cursor.ahead.length ≠ s.cursor.ahead.length from
      Nat.ne_of_lt h), Bool.and_false]
  simp only [progress, hstill, Bool.false_eq_true, ↓reduceIte]

/-- A round of the body of a type reads a member that consumes a token. -/
theorem typeBodyRound_of_size_lt {typeDeclaration : TypeReader} {place : Place} {u : Token} (hpeek : s.peek? = some u)
    (hclose : u.isPunctuation "\x7d" = false) (hsemi : u.isPunctuation ";" = false)
    (hless : (member typeDeclaration place s).settle.size < s.size) (opening : Position) :
    typeBodyRound typeDeclaration opening place s = .again (member typeDeclaration place s).settle := by
  have hprogress : s.progress (fun s => (member typeDeclaration place s).settle) =
      (member typeDeclaration place s).settle := progress_of_size_lt hless
  simp only [typeBodyRound, hpeek, hclose, hsemi, Bool.false_eq_true, ↓reduceIte, hprogress]

end Reading

open Reading

/-- A file that begins with `class C {` is read by reading the body of its class and then what is behind it. -/
theorem CompilationUnit.ofTokens_class (ahead : List Token) :
    ofTokens (classOpening ++ ahead) =
      ⟨(restOfFile (classBody (insideClass ahead))).outline,
        (restOfFile (classBody (insideClass ahead))).errors.toList⟩ := by
  have hread : typeOrStatement Outline.root (.ofTokens (classOpening ++ ahead)) =
      (classBody (insideClass ahead)).skip ";" := by
    rw [typeOrStatement, header_eq rfl]
    exact typeDeclaration_class ahead
  have hle := ((moving_of_not_stalled rfl).typeBody_skip (fun _ => id) (s := insideClass ahead) (mark "\x7b").start
    ⟨1, .classType⟩).2
  have hsize : (typeOrStatement Outline.root (.ofTokens (classOpening ++ ahead))).size <
      (Reading.ofTokens (classOpening ++ ahead)).size := by
    rw [hread]
    refine Nat.lt_of_le_of_lt hle ?_
    simp [size, Cursor.size, insideClass, Reading.ofTokens, classOpening]
    omega
  have hround : namespaceRound NamespaceBody.read NamespaceBody.file (.ofTokens (classOpening ++ ahead)) =
      .again ((classBody (insideClass ahead)).skip ";") := by
    rw [← hread, ← progress_of_size_lt hsize]
    rfl
  obtain ⟨hfile, hsound⟩ := namespaceBody_of_again rfl hround
  rw [ofTokens, hfile, NamespaceBody.read_eq hsound.moving]
  rfl

theorem CompilationUnit.ofTokens_classFile (body : List Token) :
    ofTokens (classFile body) =
      ⟨(restOfFile (classBody (insideClass (body ++ [mark "\x7d"])))).outline,
        (restOfFile (classBody (insideClass (body ++ [mark "\x7d"])))).errors.toList⟩ :=
  ofTokens_class (body ++ [mark "\x7d"])

end CSharpStyle
