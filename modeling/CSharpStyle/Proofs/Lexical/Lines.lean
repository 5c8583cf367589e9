import CSharpStyle.Proofs.Lexical.Extension
import CSharpStyle.Proofs.Lexical.Tiling

/-!
# Lines behind a complete text

A text without malformed lexemes is read in the same way whatever lines follow, and these lines are read as if they
stood alone, only further down. White space may reach over the end of the text, so that this holds of the items that
say something, which are `Lexer.notable`.

* `Lexer.items_below`: a text that lies further down.
* `Lexer.notable_line`: a lexer goes on with a further line as if it were the first one.
* `TokenStream.ofSource_append_line`: the tokens and errors of a text with further lines.
-/

namespace CSharpStyle

/-! ### Texts that lie further down -/

/-- The place in a text that another text was put in front of, with so many bytes and complete lines. -/
def Position.below (bytes lines : Nat) (p : Position) : Position := ⟨p.offset + bytes, p.line + lines, p.column⟩

def Span.below (bytes lines : Nat) (s : Span) : Span := ⟨s.start.below bytes lines, s.stop.below bytes lines⟩

def Token.below (bytes lines : Nat) (t : Token) : Token := { t with span := t.span.below bytes lines }

def LexicalError.below (bytes lines : Nat) (e : LexicalError) : LexicalError :=
  { e with span := e.span.below bytes lines }

namespace LexicalItem

def below (bytes lines : Nat) : LexicalItem → LexicalItem
  | token t => token (t.below bytes lines)
  | error e => error (e.below bytes lines)

def isTrivia : LexicalItem → Bool
  | token t => t.isTrivia
  | error _ => false

end LexicalItem

theorem Position.advance_below (bytes lines : Nat) (p : Position) (cs : List Char) :
    (p.below bytes lines).advance cs = (p.advance cs).below bytes lines := by
  induction cs generalizing p with
  | nil => rfl
  | cons c cs ih =>
    have hnext : (p.below bytes lines).next c = (p.next c).below bytes lines := by
      unfold next below
      split
      · simp only [mk.injEq, and_true]
        constructor <;> omega
      · simp only [mk.injEq, and_true]
        omega
    exact (congrArg (·.advance cs) hnext).trans (ih (p.next c))

/-- The place where the line behind a text begins. -/
theorem Position.next_advance (a : String) :
    (start.advance a.toList).next '\n' = start.below (a.utf8ByteSize + 1) (a.toList.count '\n' + 1) := by
  have hbehind := IsBehind.start.advance a.toList
  have hoffset := hbehind.offset_eq
  have hline := hbehind.line_eq
  rw [List.nil_append] at hoffset hline
  rw [String.ofList_toList] at hoffset
  rw [next, if_pos rfl, hoffset, hline, below, start, mk.injEq]
  refine ⟨?_, ?_, rfl⟩
  · exact (Nat.zero_add _).symm
  · exact Nat.add_assoc ..

namespace Lexer

theorem items_of_stop {lexer : Lexer} (h : lexer.next? = none) : lexer.items = [] := by
  rw [items]
  split
  · rfl
  · rename_i hnext
    cases hnext.symm.trans h

theorem items_of_next {lexer after : Lexer} {item : LexicalItem} (h : lexer.next? = some (item, after)) :
    lexer.items = item :: after.items := by
  rw [items]
  split
  · rename_i hstop
    cases hstop.symm.trans h
  · rename_i hnext
    cases hnext.symm.trans h
    rfl

theorem items_cons (p : Position) (atLineStart : Bool) (c : Char) (ahead : List Char) :
    let lexeme := Lexeme.ofText atLineStart c ahead
    let stop := p.advance lexeme.taken
    items ⟨p, atLineStart, c :: ahead⟩ =
      itemOf lexeme ⟨p, stop⟩ :: items ⟨stop, lineStartAfter atLineStart lexeme, lexeme.rest⟩ :=
  items_of_next rfl

def below (bytes lines : Nat) (lexer : Lexer) : Lexer :=
  { lexer with position := lexer.position.below bytes lines }

theorem next?_below (bytes lines : Nat) (lexer : Lexer) :
    (lexer.below bytes lines).next? =
      lexer.next?.map fun (item, after) => (item.below bytes lines, after.below bytes lines) := by
  obtain ⟨p, atLineStart, _ | ⟨c, ahead⟩⟩ := lexer
  · rfl
  · simp only [below, next?, Position.advance_below, Option.map_some]
    congr 2
    unfold itemOf
    split <;> rfl

/-- The items of a text that lies further down lie further down. -/
theorem items_below (bytes lines : Nat) (lexer : Lexer) :
    (lexer.below bytes lines).items = lexer.items.map (LexicalItem.below bytes lines) := by
  fun_induction items lexer with
  | case1 lexer hstop =>
    apply items_of_stop
    rw [next?_below, hstop]
    rfl
  | case2 lexer item after hnext ih =>
    have hbelow : (lexer.below bytes lines).next? = some (item.below bytes lines, after.below bytes lines) := by
      rw [next?_below, hnext]
      rfl
    rw [items_of_next hbelow, ih, List.map_cons]

/-- The tokens that are not trivia, and the malformed lexemes. -/
def notable (lexer : Lexer) : List LexicalItem := lexer.items.filter (!·.isTrivia)

theorem notable_below (bytes lines : Nat) (lexer : Lexer) :
    (lexer.below bytes lines).notable = lexer.notable.map (LexicalItem.below bytes lines) := by
  rw [notable, notable, items_below, List.filter_map]
  congr 1
  refine List.filter_congr fun item _ => ?_
  cases item <;> rfl

section

variable (p : Position) (atLineStart : Bool)

theorem notable_nil : notable ⟨p, atLineStart, []⟩ = [] := by
  rw [notable, items_of_stop rfl, List.filter_nil]

theorem notable_cons (c : Char) (ahead : List Char) :
    let lexeme := Lexeme.ofText atLineStart c ahead
    let stop := p.advance lexeme.taken
    notable ⟨p, atLineStart, c :: ahead⟩ =
      [itemOf lexeme ⟨p, stop⟩].filter (!·.isTrivia) ++
        notable ⟨stop, lineStartAfter atLineStart lexeme, lexeme.rest⟩ := by
  intro lexeme stop
  rw [notable, items_cons, ← List.singleton_append, List.filter_append]
  rfl

/-- White space at the head of a text says nothing but where the rest begins. -/
theorem notable_skip (text : List Char) :
    notable ⟨p, atLineStart, text⟩ =
      notable ⟨p.advance (text.takeWhile Unicode.isWhitespace),
        atLineStart || (text.takeWhile Unicode.isWhitespace).contains '\n', text.dropWhile Unicode.isWhitespace⟩ := by
  cases text with
  | nil => simp
  | cons c ahead =>
    cases hc : Unicode.isWhitespace c with
    | false => simp [hc]
    | true =>
      rw [notable_cons, Lexeme.ofText, if_pos hc, List.takeWhile_cons_of_pos hc, List.dropWhile_cons_of_pos hc]
      rfl

theorem notable_append {white : List Char} (hwhite : ∀ c ∈ white, Unicode.isWhitespace c) (text : List Char) :
    notable ⟨p, atLineStart, white ++ text⟩ =
      notable ⟨p.advance white, atLineStart || white.contains '\n', text⟩ := by
  rw [notable_skip, notable_skip (p.advance white), List.takeWhile_append_of_pos hwhite,
    List.dropWhile_append_of_pos hwhite, Position.advance_append, List.contains_append, Bool.or_assoc]

end

/-- If a lexer finds nothing malformed in a text, it goes on with a further line as if this were the first one. -/
theorem notable_line {lexer : Lexer} (h : ∀ item ∈ lexer.items, item.error? = none) (b : List Char) :
    notable { lexer with rest := lexer.rest ++ '\n' :: b } =
      lexer.notable ++ notable ⟨(lexer.position.advance lexer.rest).next '\n', true, b⟩ := by
  induction lexer using items.induct with
  | case1 lexer hstop =>
    obtain ⟨p, atLineStart, _ | ⟨c, ahead⟩⟩ := lexer
    · have hblank : ∀ c ∈ ['\n'], Unicode.isWhitespace c := List.forall_mem_singleton.mpr (by decide)
      rw [notable_nil, List.nil_append]
      refine (notable_append p atLineStart hblank b).trans ?_
      rw [show ['\n'].contains '\n' = true from rfl, Bool.or_true]
      rfl
    · cases hstop
  | case2 lexer item after hnext ih =>
    obtain ⟨p, atLineStart, _ | ⟨c, ahead⟩⟩ := lexer
    · cases hnext
    simp only [next?, Option.some.injEq, Prod.mk.injEq] at hnext
    obtain ⟨rfl, rfl⟩ := hnext
    rw [items_cons] at h
    obtain ⟨hitem, hrest⟩ := List.forall_mem_cons.mp h
    have hbehind := ih hrest
    rw [← Position.advance_append, Lexeme.taken_append_rest] at hbehind
    cases hc : Unicode.isWhitespace c with
    | true =>
      -- The end of the line may belong to this white space, so that the items are not those of the two texts.
      have hwhite : ∀ d ∈ c :: ahead.takeWhile Unicode.isWhitespace, Unicode.isWhitespace d :=
        List.forall_mem_cons.mpr ⟨hc, fun d hd => List.mem_takeWhile_imp hd⟩
      have hskip := notable_append p atLineStart hwhite (ahead.dropWhile Unicode.isWhitespace ++ '\n' :: b)
      rw [← List.append_assoc, List.cons_append, List.takeWhile_append_dropWhile] at hskip
      rw [notable_cons]
      rw [Lexeme.ofText, if_pos hc] at hbehind ⊢
      exact hskip.trans hbehind
    | false =>
      obtain ⟨kind, hkind⟩ : ∃ kind, (Lexeme.ofText atLineStart c ahead).kind = .ok kind := by
        unfold itemOf at hitem
        split at hitem
        · rename_i kind hkind
          exact ⟨kind, hkind⟩
        · cases hitem
      rw [List.cons_append, notable_cons, notable_cons, Lexeme.ofText_line hc hkind, List.append_assoc]
      exact congrArg (_ ++ ·) hbehind

theorem notable_ofSource_append_line {a : String} (h : ∀ item ∈ (ofSource a).items, item.error? = none) (b : String) :
    (ofSource (a ++ "\n" ++ b)).notable =
      (ofSource a).notable ++
        (ofSource b).notable.map (LexicalItem.below (a.utf8ByteSize + 1) (a.toList.count '\n' + 1)) := by
  have htext : (a ++ "\n" ++ b).toList = a.toList ++ '\n' :: b.toList := by simp
  have hplace : ((ofSource a).position.advance (ofSource a).rest).next '\n' = _ := Position.next_advance a
  have hline := notable_line h b.toList
  rw [hplace] at hline
  rw [← notable_below, ofSource, htext]
  exact hline

end Lexer

namespace TokenStream

theorem significant_eq (source : String) :
    (ofSource source).significant = (Lexer.ofSource source).notable.filterMap LexicalItem.token? := by
  simp only [significant, ofSource, Lexer.notable, List.filter_filterMap, List.filterMap_filter]
  congr 1
  funext item
  cases item with
  | token t => cases ht : t.isTrivia <;> simp [LexicalItem.token?, LexicalItem.isTrivia, ht]
  | error e => rfl

theorem errors_eq (source : String) :
    (ofSource source).errors = (Lexer.ofSource source).notable.filterMap LexicalItem.error? := by
  simp only [ofSource, Lexer.notable, List.filterMap_filter]
  congr 1
  funext item
  cases item <;> simp [LexicalItem.error?, LexicalItem.isTrivia]

/-- The tokens of a text without malformed lexemes stay the same when lines follow it. The tokens and errors of these
lines are those that they have alone, behind so many bytes and lines. -/
theorem ofSource_append_line {a : String} (h : (ofSource a).errors = []) (b : String) :
    let bytes := a.utf8ByteSize + 1
    let lines := a.toList.count '\n' + 1
    (ofSource (a ++ "\n" ++ b)).significant =
        (ofSource a).significant ++ (ofSource b).significant.map (Token.below bytes lines) ∧
      (ofSource (a ++ "\n" ++ b)).errors = (ofSource b).errors.map (LexicalError.below bytes lines) := by
  intro bytes lines
  have hclean : ∀ item ∈ (Lexer.ofSource a).items, item.error? = none := List.filterMap_eq_nil_iff.mp h
  have hnone : (Lexer.ofSource a).notable.filterMap LexicalItem.error? = [] := by rw [← errors_eq, h]
  rw [significant_eq, significant_eq, significant_eq, errors_eq, errors_eq,
    Lexer.notable_ofSource_append_line hclean, List.filterMap_append, List.filterMap_append, hnone, List.nil_append,
    List.filterMap_map, List.filterMap_map, List.map_filterMap, List.map_filterMap]
  constructor
  · congr 2
    funext item
    cases item <;> rfl
  · congr 1
    funext item
    cases item <;> rfl

/-- Strings, directives and comments end with their lines, also in front of a malformed line. -/
theorem ofSource_append_malformed_line :
    let a := "#if A // b\nvar s = $\"\x7bn\x7d\" + @\"\n\"; // c"
    let b := "  #else\nchar d = 'e"
    (ofSource a).errors = [] ∧
      (ofSource (a ++ "\n" ++ b)).significant =
        (ofSource a).significant ++ (ofSource b).significant.map (Token.below 39 3) ∧
      (ofSource (a ++ "\n" ++ b)).errors = (ofSource b).errors.map (LexicalError.below 39 3) ∧
      (ofSource b).errors ≠ [] := by
  intro a b
  have h : (ofSource a).errors = [] := by decide +kernel
  have hbytes : a.utf8ByteSize + 1 = 39 := by decide +kernel
  have hlines : a.toList.count '\n' + 1 = 3 := by decide +kernel
  obtain ⟨hsignificant, herrors⟩ := ofSource_append_line h b
  rw [hbytes, hlines] at hsignificant herrors
  exact ⟨h, hsignificant, herrors, by decide +kernel⟩

end TokenStream

end CSharpStyle
