import CSharpStyle.Proofs.CoreGrammar.Unit
import CSharpStyle.Proofs.Modifiers.Bodies

/-!
# What stands in front of a member

A file enters the body of a type behind its brace, and it stays there behind each member. In front of the brace there
may be namespaces, other types and what else a file holds.

* `Reaches front o name body around`: behind the tokens `front`, a file goes on in a body.
* `Reaches.items`, `Reaches.members`: what is read in a body before.
* `Reaches.namespaceBlock`, `Reaches.type`, `Reaches.nestedType`: a further body.
* `Front.enters`: behind any number of all these, the innermost type is entered.
-/

namespace CSharpStyle

open Token Reading CoreGrammar

/-- The scope of a body is recorded with this name, and as that of a namespace, of the file or of a type of its kind. -/
def Body.IsRecorded (o : Outline) (name : Option String) : Body → Prop
  | type _ place => o.heading? place.scope = some (name, some place.owner)
  | namespaceBody body => o.heading? body.scope = some (name, none) ∧ body.insideNamespace = name.isSome

def Body.isType : Body → Bool
  | type .. => true
  | namespaceBody _ => false

namespace Reading

/-- The reading behind the tokens `front`, if nothing was reported. -/
def behind (front : List Token) (o : Outline) (ahead : List Token) : Reading :=
  { cursor := ⟨front.reverse, ahead⟩, outline := o, errors := #[] }

variable {front ahead : List Token} {o : Outline} {s : Reading}

theorem tokens_behind : (behind front o ahead).cursor.tokens = front ++ ahead := by
  rw [Cursor.tokens, behind, List.reverse_reverse]

theorem Clean.eq_behind (h : s.Clean ahead o) (htokens : s.cursor.tokens = front ++ ahead) :
    s = behind front o ahead := by
  obtain ⟨⟨before, rest⟩, outline, errors, stalled⟩ := s
  obtain ⟨hahead, rfl, rfl, rfl⟩ := h
  cases (show rest = ahead from hahead)
  have hbefore : before.reverse = front := List.append_cancel_right htokens
  rw [behind, ← hbefore, List.reverse_reverse]

end Reading

/-- Behind the tokens `front`, nothing of which is reported, a file goes on in a body whose scope has the given name,
whatever comes next. -/
structure Reaches (front : List Token) (o : Outline) (name : Option String) (body : Body) (around : List Body) :
    Prop where
  recorded : body.IsRecorded o name
  unit {ahead : List Token} : Follows ahead →
    CompilationUnit.ofTokens (front ++ ahead) = (readOut (body :: around) (behind front o ahead)).unit

namespace Reaches

variable {front : List Token} {o o' : Outline} {name name' : Option String} {body : Body} {around : List Body}

theorem file : Reaches [] .empty none (.namespaceBody .file) [] where
  recorded := ⟨rfl, rfl⟩
  unit _ := rfl

/-- What is read next leads on to a body, if it does so for the readers of the bodies. -/
theorem append (h : Reaches front o name body around) {more : List Token} {body' : Body} {around' : List Body}
    (hrecorded : body'.IsRecorded o' name')
    (hread : ∀ {ahead : List Token}, Follows ahead → ∀ {s : Reading}, s.Clean (more ++ ahead) o →
      Follows (more ++ ahead) ∧ ∃ v : Reading, v.Clean ahead o' ∧ v.cursor.tokens = s.cursor.tokens ∧
        readOut (body :: around) s = readOut (body' :: around') v) :
    Reaches (front ++ more) o' name' body' around' where
  recorded := hrecorded
  unit {ahead} hahead := by
    have hstart : (behind front o (more ++ ahead)).Clean (more ++ ahead) o := ⟨rfl, rfl, rfl, rfl⟩
    obtain ⟨hmore, v, hv, htokens, hout⟩ := hread hahead hstart
    have hv : v = behind (front ++ more) o' ahead := by
      refine hv.eq_behind (htokens.trans ?_)
      rw [tokens_behind, List.append_assoc]
    rw [List.append_assoc, h.unit hmore, hout, hv]

/-! ### What is read in a body -/

/-- Using directives, namespaces and types of a file or a namespace. -/
theorem items {body : NamespaceBody} (h : Reaches front o name (.namespaceBody body) around) (items : Items) :
    Reaches (front ++ items.tokens) ((items.contents name).record body.scope o) name (.namespaceBody body) around := by
  obtain ⟨hscope, hinside⟩ := h.recorded
  refine h.append ⟨Contents.heading_record _ hscope, hinside⟩ fun hahead s hs => ⟨items.follows hahead, ?_⟩
  obtain ⟨v, hv, htokens, hread⟩ := items.reads body hinside hscope hahead hs
  exact ⟨v, hv, htokens, congrArg (readOut around) hread⟩

/-- Members of a type. -/
theorem members {opening : Position} {place : Place} (h : Reaches front o name (.type opening place) around)
    (members : Members) :
    Reaches (front ++ members.tokens) ((members.contents place.owner).record place.scope o) name
      (.type opening place) around := by
  refine h.append (Contents.heading_record _ h.recorded) fun hahead s hs => ⟨members.follows hahead, ?_⟩
  obtain ⟨v, hv, htokens, hread⟩ := members.reads opening place h.recorded hahead hs
  exact ⟨v, hv, htokens, congrArg (fun s => readOut around (Reading.skip s ";")) hread⟩

/-! ### Further bodies -/

theorem namespaceBlock {body : NamespaceBody} (h : Reaches front o name (.namespaceBody body) around)
    (word : Word "namespace") (inner : DottedName) (opening : Mark "\x7b") :
    let (scope, o') := o.addScope .namespaceBody (some inner.text) none body.scope
    Reaches (front ++ word.token :: (inner.tokens ++ [opening.token])) o' (some inner.text)
      (.namespaceBody ⟨scope, true, some opening.span.start⟩) (.namespaceBody body :: around) := by
  refine h.append ⟨(Outline.heading_addScope ..).trans (if_pos rfl), rfl⟩ fun hahead s hs => ?_
  refine ⟨follows_of_beginsWithWord ⟨word.token, _, rfl, by rintro ⟨⟩⟩, ?_⟩
  simp only [List.append_assoc, List.cons_append, List.nil_append] at hs
  obtain ⟨v, hv, htokens, hround⟩ := hs.namespaceBlock NamespaceBody.read word inner opening body
  rw [← hs.namespaceRound_block NamespaceBody.read body word] at hround
  exact ⟨v, hv, htokens, congrArg (readOut around) (namespaceBody_of_again hs.moving hround).1⟩

/-- The frame of a type begins with a word. -/
theorem follows_opening (frame : TypeFrame) (rest : List Token) : Follows (frame.opening ++ rest) := by
  obtain ⟨t, behind, hsplit, hkind, -⟩ := frame.head rest
  rw [hsplit]
  exact follows_of_beginsWithWord ⟨t, behind, rfl, hkind⟩

/-- A type in a file or a namespace. -/
theorem type {body : NamespaceBody} (h : Reaches front o name (.namespaceBody body) around) (frame : TypeFrame) :
    let (scope, o') := frame.record frame.modifiers.modifiers.accessibility body.scope o
    Reaches (front ++ frame.opening) o' (some frame.name.declared)
      (.type frame.braces.opening.span.start ⟨scope, frame.keyword.kind⟩) (.namespaceBody body :: around) := by
  refine h.append (frame.heading_record ..) fun {ahead} _ s hs => ⟨follows_opening frame ahead, ?_⟩
  obtain ⟨u, hu, htokens, htype⟩ := frame.typeOrStatement_eq hs body.scope
  obtain ⟨v, hv, htokens', hopens⟩ := frame.opens hu h.recorded.1 ⟨frame.modifiers.modifiers, false⟩
  rw [hopens] at htype
  have hsize : (typeOrStatement body.scope s).size < s.size := by
    rw [htype]
    refine Nat.lt_of_le_of_lt ((moving_of_not_stalled hv.moving).typeBody_skip (fun _ => id) ..).2 ?_
    rw [hv.size, hs.size, List.length_append, TypeFrame.opening]
    simp
  have hround := frame.namespaceRound NamespaceBody.read body hs
  rw [progress_of_size_lt hsize, htype] at hround
  exact ⟨v, hv, htokens'.trans htokens, congrArg (readOut around) (namespaceBody_of_again hs.moving hround).1⟩

/-- A type in the body of another one. -/
theorem nestedType {opening : Position} {place : Place} (h : Reaches front o name (.type opening place) around)
    (frame : TypeFrame) :
    let (scope, o') := frame.record (frame.modifiers.modifiers.accessibilityIn place.owner) place.scope o
    Reaches (front ++ frame.opening) o' (some frame.name.declared)
      (.type frame.braces.opening.span.start ⟨scope, frame.keyword.kind⟩) (.type opening place :: around) := by
  refine h.append (frame.heading_record ..) fun {ahead} _ s hs => ⟨follows_opening frame ahead, ?_⟩
  obtain ⟨u, hu, htokens, hmember⟩ := frame.member_eq hs place
  obtain ⟨v, hv, htokens', hopens⟩ := frame.opens hu h.recorded ⟨frame.modifiers.modifiers, false⟩
  rw [hopens] at hmember
  have hsize : (Reading.member TypeDeclaration.read place s).settle.size < s.size := by
    rw [hmember]
    refine Nat.lt_of_le_of_lt ((moving_of_not_stalled hv.moving).typeBody_skip (fun _ => id) ..).2 ?_
    rw [hv.size, hs.size, List.length_append, TypeFrame.opening]
    simp
  obtain ⟨t, behind, hsplit, hkind, -⟩ := frame.head ahead
  have hpeek : s.peek? = some t := (hsplit ▸ hs).toAt.peek
  have hround := typeBodyRound_of_size_lt hpeek (not_isPunctuation_of_kind hkind _) (not_isPunctuation_of_kind hkind _)
    hsize opening
  rw [hmember] at hround
  exact ⟨v, hv, htokens'.trans htokens,
    congrArg (fun s => readOut around (Reading.skip s ";")) (typeBody_of_again hs.moving hround).1⟩

/-- A file that goes on in the body of a type goes on with members of the type. -/
theorem enters {opening : Position} {place : Place} (h : Reaches front o name (.type opening place) around) :
    Enters front (behind front o []) opening place around where
  moving := rfl
  unit {ahead} hahead := by
    refine h.unit fun t ht => ?_
    rw [show ahead.head? = some t from ht, Option.any_some] at hahead
    have hkind := kind_of_isModifierKeyword hahead
    exact ⟨not_isPunctuation_of_kind (by rw [hkind]; decide) _, not_isPunctuation_of_kind (by rw [hkind]; decide) _⟩

end Reaches

/-! ### Fronts -/

/-- The part of a core program in front of something in the file or a namespace, or in front of a member of a type. -/
inductive Front : (isInType : Bool) → Type
  | file : Front false
  | items (front : Front false) (more : Items) : Front false
  | namespaceBlock (front : Front false) (word : Word "namespace") (name : DottedName) (opening : Mark "\x7b") :
    Front false
  | type (front : Front false) (frame : TypeFrame) : Front true
  | nestedType (front : Front true) (frame : TypeFrame) : Front true
  | members (front : Front true) (more : Members) : Front true

namespace Front

def tokens {isInType : Bool} : Front isInType → List Token
  | file => []
  | items front more => front.tokens ++ more.tokens
  | namespaceBlock front word name opening => front.tokens ++ word.token :: (name.tokens ++ [opening.token])
  | type front frame | nestedType front frame => front.tokens ++ frame.opening
  | members front more => front.tokens ++ more.tokens

/-- In a type the body of a type is reached, and outside that of a namespace or the file. -/
theorem reaches {isInType : Bool} (front : Front isInType) :
    ∃ o name body around, Reaches front.tokens o name body around ∧ body.isType = isInType := by
  induction front with
  | file => exact ⟨_, _, _, _, Reaches.file, rfl⟩
  | items front more ih =>
    obtain ⟨o, name, ⟨⟩ | body, around, h, hbody⟩ := ih
    · cases hbody
    · exact ⟨_, _, _, _, h.items more, rfl⟩
  | namespaceBlock front word name opening ih =>
    obtain ⟨o, name, ⟨⟩ | body, around, h, hbody⟩ := ih
    · cases hbody
    · exact ⟨_, _, _, _, h.namespaceBlock word _ opening, rfl⟩
  | type front frame ih =>
    obtain ⟨o, name, ⟨⟩ | body, around, h, hbody⟩ := ih
    · cases hbody
    · exact ⟨_, _, _, _, h.type frame, rfl⟩
  | nestedType front frame ih =>
    obtain ⟨o, name, ⟨opening, place⟩ | body, around, h, hbody⟩ := ih
    · exact ⟨_, _, _, _, h.nestedType frame, rfl⟩
    · cases hbody
  | members front more ih =>
    obtain ⟨o, name, ⟨opening, place⟩ | body, around, h, hbody⟩ := ih
    · exact ⟨_, _, _, _, h.members more, rfl⟩
    · cases hbody

/-- Behind the front of a member the file goes on with members, in all the bodies around it. -/
theorem enters (front : Front true) : ∃ s opening place around, Enters front.tokens s opening place around := by
  obtain ⟨o, name, ⟨opening, place⟩ | body, around, h, hbody⟩ := front.reaches
  · exact ⟨_, opening, place, around, h.enters⟩
  · cases hbody

end Front

end CSharpStyle
