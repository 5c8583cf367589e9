import CSharpStyle.Format.JsonReader
import Mathlib.Data.List.DropRight
import Mathlib.Tactic.IntervalCases

/-!
# Printed JSON is read back

What is printed for a value is read as that value, if the value does not nest too deep for the reader and its numbers
are natural numbers. The proof goes along the value: items and entries are read back from their lines if they are
read back themselves, in front of any text that does not go on with a number.

* `string?_quoted`: escapes are undone.
* `number?_toDigits`: the digits of a number are read as that number.
* `Fits.readsBack`: a value is read back at any level of indentation.
* `JsonValue.parse?_print`, `JsonValue.parse?_print_append`: a whole text is read back.
-/

namespace CSharpStyle.JsonReader

/-! ### Strings -/

/-- Control characters have two digits behind the zeros. -/
private theorem hexadecimalWithWidth_control {n : Nat} (hn : n < 0x20) : ∃ high low : Char,
    (hexadecimalWithWidth 4 n).toList = ['0', '0', high, low] ∧ hexNumber? ['0', '0', high, low] = some n := by
  interval_cases n <;> exact ⟨_, _, rfl, rfl⟩

theorem stringFrom?_escaped (c : Char) (before rest : List Char) :
    stringFrom? before (JsonValue.escaped c ++ rest) = stringFrom? (c :: before) rest := by
  unfold JsonValue.escaped
  split
  iterate 7 rfl
  -- Left are the characters without an escape of their own.
  rename_i hquote hbackslash _ _ _ _ _
  split
  · next hcontrol =>
    obtain ⟨high, low, htext, hnumber⟩ := hexadecimalWithWidth_control hcontrol
    have hcharacter : c.toNat < 0xD800 ∨ 0xDFFF < c.toNat := by omega
    rw [htext]
    change stringFrom? before ('\\' :: 'u' :: '0' :: '0' :: high :: low :: rest) = _
    rw [stringFrom?]
    simp only [hnumber, if_pos hcharacter, Char.ofNat_toNat]
  · next hcontrol =>
    change stringFrom? before (c :: rest) = _
    rw [stringFrom?]
    · rw [if_neg hcontrol]
    all_goals simp_all

theorem stringFrom?_flatMap_escaped (chars before rest : List Char) :
    stringFrom? before (chars.flatMap JsonValue.escaped ++ '"' :: rest) =
      some (String.ofList (before.reverse ++ chars), rest) := by
  induction chars generalizing before with
  | nil => simp [stringFrom?]
  | cons c chars ih =>
    rw [List.flatMap_cons, List.append_assoc, stringFrom?_escaped, ih, List.reverse_cons, List.append_assoc]
    rfl

/-- A string is read back behind its opening quote. -/
theorem string?_quoted (s : String) (rest : List Char) :
    string? (s.toList.flatMap JsonValue.escaped ++ '"' :: rest) = some (s, rest) := by
  rw [string?, stringFrom?_flatMap_escaped, List.reverse_nil, List.nil_append, String.ofList_toList]

/-! ### Numbers -/

/-- Text that does not go on with a number. -/
def EndsNumber (rest : List Char) : Prop :=
  ∀ c ∈ rest.head?, c.isDigit = false ∧ c ≠ '.' ∧ c ≠ 'e' ∧ c ≠ 'E'

theorem digits?_append {digits rest : List Char} (hne : digits ≠ []) (hdigits : ∀ c ∈ digits, c.isDigit = true)
    (hrest : EndsNumber rest) : digits? (digits ++ rest) = some (digits, rest) := by
  have hnone : rest.takeWhile Char.isDigit = [] := by
    cases rest with
    | nil => rfl
    | cons c rest => exact List.takeWhile_cons_of_neg (by simp [(hrest c rfl).1])
  have htaken : (digits ++ rest).takeWhile Char.isDigit = digits := by
    rw [List.takeWhile_append_of_pos hdigits, hnone, List.append_nil]
  simp [digits?, htaken, hne]

theorem fraction?_of_endsNumber {rest : List Char} (hrest : EndsNumber rest) : fraction? rest = some ([], rest) := by
  unfold fraction?
  split
  · exact absurd rfl (hrest _ rfl).2.1
  · rfl

theorem exponent?_of_endsNumber {rest : List Char} (hrest : EndsNumber rest) : exponent? rest = some ([], rest) := by
  unfold exponent?
  split
  · refine if_neg ?_
    rintro (rfl | rfl)
    · exact (hrest _ rfl).2.2.1 rfl
    · exact (hrest _ rfl).2.2.2 rfl
  · rfl

/-- A number is written without leading zeros. -/
theorem head?_toDigits {n : Nat} (hn : n ≠ 0) : (Nat.toDigits 10 n).head? ≠ some '0' := by
  induction n using Nat.strongRecOn with
  | ind n ih =>
    rw [Nat.toDigits_eq_if (by decide)]
    split
    · next hsmall => interval_cases n <;> first | contradiction | decide
    · next hlarge =>
      rw [List.head?_append_of_ne_nil _ Nat.toDigits_ne_nil]
      exact ih (n / 10) (by omega) (by omega)

theorem number?_toDigits (n : Nat) {rest : List Char} (hrest : EndsNumber rest) :
    number? (Nat.toDigits 10 n ++ rest) = some (.natural n, rest) := by
  have hdigits : ∀ c ∈ Nat.toDigits 10 n, c.isDigit = true := fun c hc =>
    Nat.isDigit_of_mem_toDigits (by decide) (by decide) hc
  have hwhole := digits?_append Nat.toDigits_ne_nil hdigits hrest
  have hzero : ¬(1 < (Nat.toDigits 10 n).length ∧ (Nat.toDigits 10 n).head? = some '0') := by
    rintro ⟨hlength, hhead⟩
    by_cases hn : n = 0
    · subst hn
      exact absurd hlength (by decide)
    · exact head?_toDigits hn hhead
  have hvalue : (Nat.toDigits 10 n).foldl (fun n c => n * 10 + (c.toNat - '0'.toNat)) 0 = n := by
    have h := Nat.ofDigitChars_toDigits (b := 10) (n := n) (by decide) (by decide)
    rw [Nat.ofDigitChars_eq_foldl] at h
    simpa only [Nat.mul_comm] using h
  unfold number?
  split
  next sign unsigned h =>
  -- The number begins with a digit, so that no sign is taken off.
  have hstart : sign = [] ∧ unsigned = Nat.toDigits 10 n ++ rest := by
    split at h
    · next tail htext =>
      obtain ⟨c, digits, hc⟩ := List.exists_cons_of_ne_nil (Nat.toDigits_ne_nil (n := n) (b := 10))
      rw [hc, List.cons_append, List.cons.injEq] at htext
      have hdigit := hdigits c (hc ▸ List.mem_cons_self ..)
      rw [htext.1] at hdigit
      cases hdigit
    · cases h
      exact ⟨rfl, rfl⟩
  obtain ⟨rfl, rfl⟩ := hstart
  simp only [hwhole, Option.bind_eq_bind, Option.bind_some, if_neg hzero, fraction?_of_endsNumber hrest,
    exponent?_of_endsNumber hrest, List.isEmpty_nil, and_self, if_true, hvalue]

/-! ### Values -/

theorem skipSpace_append {space : List Char} (hspace : ∀ c ∈ space, isSpace c = true) (text : List Char) :
    skipSpace (space ++ text) = skipSpace text :=
  List.dropWhile_append_of_pos hspace

private theorem skipSpace_skipSpace (text : List Char) : skipSpace (skipSpace text) = skipSpace text :=
  List.dropWhile_idempotent ..

variable {n depth : Nat} {text text' rest : List Char}

theorem value?_congr (h : skipSpace text = skipSpace text') : value? n depth text = value? n depth text' := by
  cases n with
  | zero => rfl
  | succ n => rw [value?, value?, h]

theorem items?_congr (h : skipSpace text = skipSpace text') : items? n depth text = items? n depth text' := by
  cases n with
  | zero => rfl
  | succ n => rw [items?, items?, value?_congr h]

theorem entries?_congr (h : skipSpace text = skipSpace text') : entries? n depth text = entries? n depth text' := by
  cases n with
  | zero => rfl
  | succ n => rw [entries?, entries?, h]

private theorem items?_line : items? n depth ('\n' :: text) = items? n depth text := items?_congr rfl

private theorem entries?_line : entries? n depth ('\n' :: text) = entries? n depth text := entries?_congr rfl

/-- No value begins with a closing bracket. -/
private theorem items?_bracket (h : skipSpace text = ']' :: rest) : items? n depth text = none := by
  cases n with
  | zero => rfl
  | succ n =>
    have hvalue : value? n depth text = none := by
      cases n with
      | zero => rfl
      | succ n =>
        rw [value?, h]
        rfl
    rw [items?, hvalue]
    rfl

private theorem entries?_brace (h : skipSpace text = '\x7d' :: rest) : entries? n depth text = none := by
  cases n with
  | zero => rfl
  | succ n =>
    rw [entries?, h]
    rfl

theorem value?_array {items : List JsonValue} (h : items? n depth text = some (items, rest)) :
    value? (n + 1) (depth + 1) ('[' :: text) = some (.array items, rest) := by
  have hitems : items? n depth (skipSpace text) = items? n depth text := items?_congr (skipSpace_skipSpace text)
  rw [value?, show skipSpace ('[' :: text) = '[' :: text from rfl]
  simp only [Nat.add_one_ne_zero, if_false, Nat.add_sub_cancel]
  split
  · next heq =>
    -- Items were found, so that the array does not end here.
    rw [items?_bracket heq] at h
    cases h
  · rw [hitems, h]
    rfl

theorem value?_object {entries : List (String × JsonValue)} (h : entries? n depth text = some (entries, rest)) :
    value? (n + 1) (depth + 1) ('\x7b' :: text) = some (.object entries, rest) := by
  have hentries : entries? n depth (skipSpace text) = entries? n depth text := entries?_congr (skipSpace_skipSpace text)
  rw [value?, show skipSpace ('\x7b' :: text) = '\x7b' :: text from rfl]
  simp only [Nat.add_one_ne_zero, if_false, Nat.add_sub_cancel]
  split
  · next heq =>
    rw [entries?_brace heq] at h
    cases h
  · rw [hentries, h]
    rfl

theorem items?_last {item : JsonValue} (h : value? n depth text = some (item, text'))
    (hclose : skipSpace text' = ']' :: rest) : items? (n + 1) depth text = some ([item], rest) := by
  rw [items?, h]
  simp only [Option.bind_eq_bind, Option.bind_some, hclose]

theorem items?_cons {item : JsonValue} {items : List JsonValue}
    (h : value? n depth text = some (item, ',' :: text'))
    (hitems : items? n depth text' = some (items, rest)) : items? (n + 1) depth text = some (item :: items, rest) := by
  rw [items?, h, Option.bind_eq_bind, Option.bind_some]
  change (items? n depth text').bind _ = _
  rw [hitems, Option.bind_some]

/-- A key in quotes and what stands behind it. -/
def keyText (key : String) (behind : List Char) : List Char :=
  '"' :: (key.toList.flatMap JsonValue.escaped ++ '"' :: ':' :: behind)

private theorem entries?_keyText (n depth : Nat) (key : String) (text : List Char) :
    entries? (n + 1) depth (keyText key text) =
      (value? n depth text).bind fun (value, rest) =>
        match skipSpace rest with
        | ',' :: rest => (entries? n depth rest).bind fun (entries, rest) => some ((key, value) :: entries, rest)
        | '\x7d' :: rest => some ([(key, value)], rest)
        | _ => none := by
  rw [entries?]
  change (string? (key.toList.flatMap JsonValue.escaped ++ '"' :: ':' :: text)).bind _ = _
  rw [string?_quoted]
  rfl

theorem entries?_last {value : JsonValue} (key : String) (h : value? n depth text = some (value, text'))
    (hclose : skipSpace text' = '\x7d' :: rest) :
    entries? (n + 1) depth (keyText key text) = some ([(key, value)], rest) := by
  rw [entries?_keyText, h, Option.bind_some]
  simp only [hclose]

theorem entries?_cons {value : JsonValue} {entries : List (String × JsonValue)} (key : String)
    (h : value? n depth text = some (value, ',' :: text')) (hentries : entries? n depth text' = some (entries, rest)) :
    entries? (n + 1) depth (keyText key text) = some ((key, value) :: entries, rest) := by
  rw [entries?_keyText, h, Option.bind_some]
  change (entries? n depth text').bind _ = _
  rw [hentries, Option.bind_some]

/-! ### Printed values -/

private theorem indentation_isSpace (depth : Nat) : ∀ c ∈ (JsonValue.indentation depth).toList, isSpace c = true := by
  intro c hc
  rw [JsonValue.indentation, String.toList_ofList] at hc
  rw [List.eq_of_mem_replicate hc]
  rfl

theorem printItems_eq_map (depth : Nat) (items : List JsonValue) :
    JsonValue.printItems depth items = items.map (JsonValue.printAt depth) := by
  induction items with
  | nil => rfl
  | cons item items ih => rw [JsonValue.printItems, ih, List.map_cons]

/-- A key and its value on a line. -/
def entryText (level : Nat) (entry : String × JsonValue) : String :=
  JsonValue.quoted entry.1 ++ ": " ++ JsonValue.printAt level entry.2

theorem printEntries_eq_map (depth : Nat) (entries : List (String × JsonValue)) :
    JsonValue.printEntries depth entries = entries.map (entryText depth) := by
  induction entries with
  | nil => rfl
  | cons entry entries ih =>
    rw [JsonValue.printEntries, ih, List.map_cons]
    rfl

/-- Lines with commas between them, up to the line of the closing bracket. -/
def linesText (depth : Nat) (items : List String) : List Char :=
  [',', '\n'].intercalate (items.map fun item => (JsonValue.indentation (depth + 1)).toList ++ item.toList) ++
    '\n' :: (JsonValue.indentation depth).toList

private theorem linesText_cons_cons (depth : Nat) (item next : String) (items : List String) :
    linesText depth (item :: next :: items) =
      (JsonValue.indentation (depth + 1)).toList ++
        (item.toList ++ ',' :: '\n' :: linesText depth (next :: items)) := by
  simp [linesText, List.intercalate_cons_cons]

private theorem linesText_singleton (depth : Nat) (item : String) :
    linesText depth [item] = (JsonValue.indentation (depth + 1)).toList ++
      (item.toList ++ '\n' :: (JsonValue.indentation depth).toList) := by
  simp [linesText]

theorem toList_enclosed (opening closing : String) (depth : Nat) {items : List String} (h : items ≠ []) :
    (JsonValue.enclosed opening closing depth items).toList =
      opening.toList ++ '\n' :: linesText depth items ++ closing.toList := by
  rw [JsonValue.enclosed, if_neg (by simpa using h)]
  simp [String.toList_intercalate, linesText, Function.comp_def]

theorem toList_printAt_array_nil (level : Nat) : (JsonValue.printAt level (.array [])).toList = ['[', ']'] := by
  simp [JsonValue.printAt, JsonValue.printItems, JsonValue.enclosed]

theorem toList_printAt_array (level : Nat) {items : List JsonValue} (h : items ≠ []) :
    (JsonValue.printAt level (.array items)).toList =
      '[' :: '\n' :: (linesText level (items.map (JsonValue.printAt (level + 1))) ++ [']']) := by
  rw [JsonValue.printAt, printItems_eq_map, toList_enclosed _ _ _ (by simpa using h)]
  rfl

theorem toList_printAt_object_nil (level : Nat) :
    (JsonValue.printAt level (.object [])).toList = ['\x7b', '\x7d'] := by
  simp [JsonValue.printAt, JsonValue.printEntries, JsonValue.enclosed]

theorem toList_printAt_object (level : Nat) {entries : List (String × JsonValue)} (h : entries ≠ []) :
    (JsonValue.printAt level (.object entries)).toList =
      '\x7b' :: '\n' :: (linesText level (entries.map (entryText (level + 1))) ++ ['\x7d']) := by
  rw [JsonValue.printAt, printEntries_eq_map, toList_enclosed _ _ _ (by simpa using h)]
  rfl

/-- Values that nest at most `depth` levels deep and whose numbers are natural numbers. -/
inductive Fits : Nat → JsonValue → Prop
  | null (depth : Nat) : Fits depth .null
  | bool (depth : Nat) (b : Bool) : Fits depth (.bool b)
  | natural (depth n : Nat) : Fits depth (.natural n)
  | string (depth : Nat) (s : String) : Fits depth (.string s)
  | array {depth : Nat} {items : List JsonValue} (h : ∀ item ∈ items, Fits depth item) :
      Fits (depth + 1) (.array items)
  | object {depth : Nat} {entries : List (String × JsonValue)} (h : ∀ entry ∈ entries, Fits depth entry.2) :
      Fits (depth + 1) (.object entries)

attribute [simp] Fits.null Fits.bool Fits.natural Fits.string

@[simp]
theorem fits_array {depth : Nat} {items : List JsonValue} :
    Fits (depth + 1) (.array items) ↔ ∀ item ∈ items, Fits depth item :=
  ⟨fun | .array h => h, .array⟩

@[simp]
theorem fits_object {depth : Nat} {entries : List (String × JsonValue)} :
    Fits (depth + 1) (.object entries) ↔ ∀ entry ∈ entries, Fits depth entry.2 :=
  ⟨fun | .object h => h, .object⟩

@[simp]
theorem fits_ofOption {α : Type} {depth : Nat} {encode : α → JsonValue} (h : ∀ a, Fits depth (encode a))
    (o : Option α) : Fits depth (.ofOption encode o) := by
  cases o with
  | none => exact .null depth
  | some a => exact h a

/-- The value is read back from each of its printed forms, in front of any text. A reader that may go as many rounds
as the form has characters never runs out of them. -/
def ReadsBack (depth : Nat) (v : JsonValue) : Prop :=
  ∀ n level rest, (JsonValue.printAt level v).toList.length ≤ n → EndsNumber rest →
    value? (n + 1) depth ((JsonValue.printAt level v).toList ++ rest) = some (v, rest)

private theorem endsNumber_comma (rest : List Char) : EndsNumber (',' :: rest) := by
  rintro _ ⟨⟩
  decide

private theorem endsNumber_line (rest : List Char) : EndsNumber ('\n' :: rest) := by
  rintro _ ⟨⟩
  decide

private theorem value?_indentation (n depth level : Nat) (text : List Char) :
    value? n depth ((JsonValue.indentation level).toList ++ text) = value? n depth text :=
  value?_congr (skipSpace_append (indentation_isSpace level) text)

private theorem value?_space (n depth : Nat) (text rest : List Char) :
    value? n depth (' ' :: text ++ rest) = value? n depth (text ++ rest) :=
  value?_congr rfl

private theorem skipSpace_lineEnd (level : Nat) {c : Char} (hc : isSpace c = false) (rest : List Char) :
    skipSpace ('\n' :: (JsonValue.indentation level).toList ++ c :: rest) = c :: rest := by
  have hspace : ∀ d ∈ '\n' :: (JsonValue.indentation level).toList, isSpace d = true :=
    List.forall_mem_cons.mpr ⟨rfl, indentation_isSpace level⟩
  rw [skipSpace_append hspace, skipSpace, List.dropWhile_cons_of_neg (by simp [hc])]

private theorem length_indentation (level : Nat) : (JsonValue.indentation level).toList.length = 2 * level := by
  simp [JsonValue.indentation]

/-- Items are read back from their lines, whatever follows the closing bracket. -/
theorem items?_linesText {items : List JsonValue} (hitems : ∀ item ∈ items, ReadsBack depth item) (hne : items ≠ [])
    {level : Nat} (hn : (linesText level (items.map (JsonValue.printAt (level + 1)))).length ≤ n) (rest : List Char) :
    items? n depth (linesText level (items.map (JsonValue.printAt (level + 1))) ++ ']' :: rest) =
      some (items, rest) := by
  induction items generalizing n with
  | nil => exact absurd rfl hne
  | cons item items ih =>
    obtain ⟨hitem, hitems⟩ := List.forall_mem_cons.mp hitems
    cases items with
    | nil =>
      rw [List.map_cons, List.map_nil, linesText_singleton] at hn ⊢
      simp only [List.length_append, List.length_cons, length_indentation] at hn
      -- One round goes to the list and one to the item, whose line is longer than the item itself.
      obtain ⟨n, rfl⟩ : ∃ m, n = m + 2 := ⟨n - 2, by omega⟩
      refine items?_last ?_ (skipSpace_lineEnd level rfl rest)
      rw [List.append_assoc, value?_indentation, List.append_assoc]
      exact hitem n (level + 1) _ (by omega) (endsNumber_line _)
    | cons next items =>
      have hrest {m : Nat} := ih (n := m) hitems (List.cons_ne_nil _ _)
      rw [List.map_cons] at hrest
      rw [List.map_cons, List.map_cons, linesText_cons_cons] at hn ⊢
      simp only [List.length_append, List.length_cons, length_indentation] at hn
      obtain ⟨n, rfl⟩ : ∃ m, n = m + 2 := ⟨n - 2, by omega⟩
      refine items?_cons ?_ (items?_line.trans (hrest (m := n + 1) (by omega)))
      rw [List.append_assoc, value?_indentation, List.append_assoc]
      exact hitem n (level + 1) _ (by omega) (endsNumber_comma _)

theorem toList_entryText (level : Nat) (entry : String × JsonValue) :
    (entryText level entry).toList = keyText entry.1 (' ' :: (JsonValue.printAt level entry.2).toList) := by
  simp [entryText, keyText, JsonValue.quoted]

private theorem keyText_append (key : String) (text rest : List Char) :
    keyText key text ++ rest = keyText key (text ++ rest) := by
  simp [keyText]

private theorem length_keyText (key : String) (text : List Char) : text.length < (keyText key text).length := by
  simp [keyText]
  omega

theorem entries?_linesText {entries : List (String × JsonValue)}
    (hentries : ∀ entry ∈ entries, ReadsBack depth entry.2) (hne : entries ≠ [])
    {level : Nat} (hn : (linesText level (entries.map (entryText (level + 1)))).length ≤ n) (rest : List Char) :
    entries? n depth (linesText level (entries.map (entryText (level + 1))) ++ '\x7d' :: rest) =
      some (entries, rest) := by
  induction entries generalizing n with
  | nil => exact absurd rfl hne
  | cons entry entries ih =>
    obtain ⟨hentry, hentries⟩ := List.forall_mem_cons.mp hentries
    have hkey := length_keyText entry.1 (' ' :: (JsonValue.printAt (level + 1) entry.2).toList)
    rw [List.length_cons] at hkey
    cases entries with
    | nil =>
      rw [List.map_cons, List.map_nil, linesText_singleton, toList_entryText] at hn ⊢
      simp only [List.length_append, List.length_cons, length_indentation] at hn
      obtain ⟨n, rfl⟩ : ∃ m, n = m + 2 := ⟨n - 2, by omega⟩
      rw [List.append_assoc, entries?_congr (skipSpace_append (indentation_isSpace _) _), List.append_assoc,
        keyText_append]
      refine entries?_last entry.1 ?_ (skipSpace_lineEnd level rfl rest)
      rw [value?_space]
      exact hentry n (level + 1) _ (by omega) (endsNumber_line _)
    | cons next entries =>
      have hrest {m : Nat} := ih (n := m) hentries (List.cons_ne_nil _ _)
      rw [List.map_cons] at hrest
      rw [List.map_cons, List.map_cons, linesText_cons_cons, toList_entryText] at hn ⊢
      simp only [List.length_append, List.length_cons, length_indentation] at hn
      obtain ⟨n, rfl⟩ : ∃ m, n = m + 2 := ⟨n - 2, by omega⟩
      rw [List.append_assoc, entries?_congr (skipSpace_append (indentation_isSpace _) _), List.append_assoc,
        keyText_append]
      refine entries?_cons entry.1 ?_ (entries?_line.trans (hrest (m := n + 1) (by omega)))
      rw [value?_space]
      exact hentry n (level + 1) _ (by omega) (endsNumber_comma _)

/-- What begins with a digit is a number. -/
theorem value?_digit {c : Char} (hdigit : c.isDigit = true) :
    value? (n + 1) depth (c :: text) = number? (c :: text) := by
  have hspace : skipSpace (c :: text) = c :: text := by
    refine List.dropWhile_cons_of_neg fun hc => ?_
    simp only [isSpace, Bool.or_eq_true, beq_iff_eq] at hc
    rcases hc with ((rfl | rfl) | rfl) | rfl <;> cases hdigit
  rw [value?, hspace]
  split
  iterate 6 exact absurd hdigit (by next heq => cases heq; decide)
  rfl

theorem value?_natural (m : Nat) (hrest : EndsNumber rest) :
    value? (n + 1) depth (Nat.toDigits 10 m ++ rest) = some (.natural m, rest) := by
  obtain ⟨c, digits, hc⟩ := List.exists_cons_of_ne_nil (Nat.toDigits_ne_nil (n := m) (b := 10))
  have hdigit : c.isDigit = true :=
    Nat.isDigit_of_mem_toDigits (by decide) (by decide) (hc ▸ List.mem_cons_self ..)
  rw [← number?_toDigits m hrest, hc, List.cons_append, value?_digit hdigit]

theorem value?_string (s : String) (rest : List Char) :
    value? (n + 1) depth ((JsonValue.quoted s).toList ++ rest) = some (.string s, rest) := by
  have htext : (JsonValue.quoted s).toList ++ rest = '"' :: (s.toList.flatMap JsonValue.escaped ++ '"' :: rest) := by
    simp [JsonValue.quoted]
  rw [htext, value?]
  change (string? (s.toList.flatMap JsonValue.escaped ++ '"' :: rest)).map _ = _
  rw [string?_quoted]
  rfl

theorem Fits.readsBack {v : JsonValue} (h : Fits depth v) : ReadsBack depth v := by
  induction h with
  | null depth =>
    intro n level rest hn hrest
    simp only [JsonValue.printAt, String.reduceToList]
    rfl
  | bool depth b =>
    intro n level rest hn hrest
    cases b <;> simp only [JsonValue.printAt, String.reduceToList, if_true] <;> rfl
  | natural depth m =>
    intro n level rest hn hrest
    rw [JsonValue.printAt]
    exact (congrArg _ (congrArg (· ++ rest) Nat.toList_repr)).trans (value?_natural m hrest)
  | string depth s =>
    intro n level rest hn hrest
    exact value?_string s rest
  | @array depth items h ih =>
    intro n level rest hn hrest
    by_cases hitems : items = []
    · subst hitems
      rw [toList_printAt_array_nil, value?]
      rfl
    · rw [toList_printAt_array level hitems] at hn ⊢
      simp only [List.length_cons, List.length_append] at hn
      simp only [List.cons_append, List.append_assoc]
      refine value?_array (items?_line.trans ?_)
      exact items?_linesText ih hitems (by omega) rest
  | @object depth entries h ih =>
    intro n level rest hn hrest
    by_cases hentries : entries = []
    · subst hentries
      rw [toList_printAt_object_nil, value?]
      rfl
    · rw [toList_printAt_object level hentries] at hn ⊢
      simp only [List.length_cons, List.length_append] at hn
      simp only [List.cons_append, List.append_assoc]
      refine value?_object (entries?_line.trans ?_)
      exact entries?_linesText ih hentries (by omega) rest

end CSharpStyle.JsonReader

namespace CSharpStyle

/-- A value is read back from its printed form, also if white space follows. -/
theorem JsonValue.parse?_print_append {v : JsonValue} (h : JsonReader.Fits 127 v) {space : String}
    (hspace : ∀ c ∈ space.toList, JsonReader.isSpace c = true) : parse? (v.print ++ space) = some v := by
  have hends : JsonReader.EndsNumber space.toList := by
    intro c hc
    have hc := hspace c (List.mem_of_mem_head? hc)
    simp only [JsonReader.isSpace, Bool.or_eq_true, beq_iff_eq] at hc
    rcases hc with ((rfl | rfl) | rfl) | rfl <;> decide
  have hrest : JsonReader.skipSpace space.toList = [] := by
    have h := JsonReader.skipSpace_append hspace []
    rwa [List.append_nil] at h
  have hfuel : (printAt 0 v).toList.length ≤ 2 * (printAt 0 v ++ space).length := by
    rw [String.length_append, String.length_toList]
    omega
  have hvalue := h.readsBack _ 0 space.toList hfuel hends
  rw [← String.toList_append] at hvalue
  rw [parse?, print, hvalue]
  simp only [hrest, List.isEmpty_nil, if_true]

theorem JsonValue.parse?_print {v : JsonValue} (h : JsonReader.Fits 127 v) : parse? v.print = some v := by
  have hempty : ∀ c ∈ "".toList, JsonReader.isSpace c = true := List.forall_mem_nil _
  simpa using parse?_print_append h hempty

end CSharpStyle
