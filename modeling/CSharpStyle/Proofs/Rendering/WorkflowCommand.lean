import CSharpStyle.Proofs.Discovery.Paths
import CSharpStyle.Proofs.Source.Lines
import CSharpStyle.Rendering.Format

/-!
# Workflow commands are read back

A workflow command is one line: the level, properties with commas between them, and behind two colons the message. The
characters that have a meaning there are written as percent codes in what a record holds, and so is the percent sign, so
that no file name, rule or message can end a line or a property, or be taken for a percent code.

* `data_eq_replaced`, `property_eq_replaced`: a text is written by replacing the percent sign first, and then one
  character after the other.
* `unescape_data`, `unescape_property`: percent codes are read back in one go.
* `Remark.ofLine?_lineOf`: a line says what its record says.
* `linesOf_flatMap`: the lines of a text are the ones it was put together from.
* `commands_read_back`: the output for a list of records is read back.
-/

namespace CSharpStyle

/-! ### Lines -/

theorem splitAtNewlines_of_notMem {line : List Char} (h : '\n' ∉ line) : splitAtNewlines line = [line] := by
  induction line with
  | nil => rfl
  | cons c line ih =>
    obtain ⟨hc, hline⟩ := List.ne_and_not_mem_of_not_mem_cons h
    exact splitAtNewlines_cons (Ne.symm hc) (ih hline)

/-- Lines that are ended by newlines are the pieces between newlines, and nothing is behind the last one. -/
theorem splitAtNewlines_flatMap {lines : List (List Char)} (h : ∀ line ∈ lines, '\n' ∉ line) :
    splitAtNewlines (lines.flatMap (· ++ ['\n'])) = lines ++ [[]] := by
  induction lines with
  | nil => rfl
  | cons line lines ih =>
    obtain ⟨hline, hlines⟩ := List.forall_mem_cons.mp h
    rw [List.flatMap_cons, List.append_assoc, List.singleton_append, splitAtNewlines_append_line,
      splitAtNewlines_of_notMem hline, ih hlines, List.singleton_append, List.cons_append]

/-- Lines that are ended by newlines are the lines of the whole text. -/
theorem linesOf_flatMap {lines : List (List Char)} (h : ∀ line ∈ lines, ∀ c ∈ ['\n', '\r'], c ∉ line) :
    linesOf (lines.flatMap (· ++ ['\n'])) = lines := by
  have hkeep : ∀ line ∈ lines, withoutCarriageReturn line = line := by
    intro line hline
    rw [withoutCarriageReturn, if_neg fun hlast => h line hline '\r' (by decide) (List.mem_of_getLast? hlast)]
  simp only [linesOf, splitAtNewlines_flatMap fun line hline => h line hline '\n' (by decide), List.getLast?_concat,
    List.dropLast_concat]
  exact (List.map_congr_left hkeep).trans (List.map_id lines)

/-- As many newlines as lines are in such a text. -/
theorem count_flatMap_line {lines : List (List Char)} (h : ∀ line ∈ lines, '\n' ∉ line) :
    (lines.flatMap (· ++ ['\n'])).count '\n' = lines.length := by
  have hline : ∀ line ∈ lines, (line ++ ['\n']).count '\n' = 1 := by
    intro line hline
    rw [List.count_append, List.count_eq_zero_of_not_mem (h line hline), List.count_singleton_self]
  calc (lines.flatMap (· ++ ['\n'])).count '\n' = (lines.map fun line => (line ++ ['\n']).count '\n').sum :=
        List.count_flatMap
    _ = (lines.map fun _ => 1).sum := by rw [List.map_congr_left hline]
    _ = lines.length := by rw [List.map_const', List.sum_replicate_nat, Nat.mul_one]

/-- The text in front of the first `c`, and what comes behind it. -/
def cutAt (c : Char) (text : List Char) : List Char × List Char :=
  (text.takeWhile (· != c), (text.dropWhile (· != c)).tail)

theorem cutAt_append {c : Char} {first : List Char} (h : c ∉ first) (second : List Char) :
    cutAt c (first ++ c :: second) = (first, second) := by
  have hfirst : ∀ d ∈ first, (d != c) = true := fun d hd => bne_iff_ne.mpr fun hdc => h (hdc ▸ hd)
  rw [cutAt, List.takeWhile_append_of_pos hfirst, List.takeWhile_cons_of_neg (by simp), List.append_nil,
    List.dropWhile_append_of_pos hfirst, List.dropWhile_cons_of_neg (by simp), List.tail_cons]

theorem cutAt_of_notMem {c : Char} {text : List Char} (h : c ∉ text) : cutAt c text = (text, []) := by
  have htext : ∀ d ∈ text, (d != c) = true := fun d hd => bne_iff_ne.mpr fun hdc => h (hdc ▸ hd)
  rw [cutAt, List.takeWhile_eq_self_iff.mpr htext, List.dropWhile_eq_nil_iff.mpr htext, List.tail_nil]

namespace WorkflowCommand

/-! ### Percent codes -/

/-- The text with each `c` replaced. -/
def replaced (c : Char) (code text : List Char) : List Char := text.flatMap fun d => if d = c then code else [d]

theorem notMem_replaced {c d : Char} {code text : List Char} (hcode : d ∉ code) (h : d = c ∨ d ∉ text) :
    d ∉ replaced c code text := by
  intro hmem
  obtain ⟨e, he, hd⟩ := List.mem_flatMap.mp hmem
  split at hd
  · exact hcode hd
  · next hne =>
    obtain rfl := List.mem_singleton.mp hd
    exact h.elim hne fun hnot => hnot he

/-- The percent sign is replaced first, as the codes contain it. -/
theorem data_eq_replaced (text : String) :
    (data text).toList =
      replaced '\n' ['%', '0', 'A'] (replaced '\r' ['%', '0', 'D'] (replaced '%' ['%', '2', '5'] text.toList)) := by
  simp only [data, String.toList_ofList, replaced, List.flatMap_assoc]
  congr 1
  funext c
  unfold escapedInData
  split
  · rfl
  · rfl
  · rfl
  · next hpercent hreturn hline =>
    rw [if_neg hpercent, List.flatMap_singleton, if_neg hreturn, List.flatMap_singleton, if_neg hline]

theorem property_eq_replaced (text : String) :
    (property text).toList = replaced ',' ['%', '2', 'C'] (replaced ':' ['%', '3', 'A'] (data text).toList) := by
  simp only [property, data, String.toList_ofList, replaced, List.flatMap_assoc]
  congr 1
  funext c
  unfold escapedInProperty
  split
  · rfl
  · rfl
  · next hcolon hcomma =>
    unfold escapedInData
    split
    · rfl
    · rfl
    · rfl
    · rw [List.flatMap_singleton, if_neg hcolon, List.flatMap_singleton, if_neg hcomma]

/-- The text with its percent codes read. -/
def unescape : List Char → List Char
  | '%' :: '2' :: '5' :: rest => '%' :: unescape rest
  | '%' :: '0' :: 'D' :: rest => '\r' :: unescape rest
  | '%' :: '0' :: 'A' :: rest => '\n' :: unescape rest
  | '%' :: '3' :: 'A' :: rest => ':' :: unescape rest
  | '%' :: '2' :: 'C' :: rest => ',' :: unescape rest
  | c :: rest => c :: unescape rest
  | [] => []

theorem unescape_cons {c : Char} (h : c ≠ '%') (rest : List Char) : unescape (c :: rest) = c :: unescape rest := by
  rw [unescape] <;> simp [h]

theorem unescape_flatMap {escaped : Char → List Char}
    (h : ∀ c rest, unescape (escaped c ++ rest) = c :: unescape rest) (text : List Char) :
    unescape (text.flatMap escaped) = text := by
  induction text with
  | nil => simp [unescape]
  | cons c text ih => rw [List.flatMap_cons, h, ih]

theorem unescape_escapedInData (c : Char) (rest : List Char) :
    unescape (escapedInData c ++ rest) = c :: unescape rest := by
  unfold escapedInData
  split
  · simp [unescape]
  · simp [unescape]
  · simp [unescape]
  · next hpercent _ _ => exact unescape_cons hpercent rest

theorem unescape_escapedInProperty (c : Char) (rest : List Char) :
    unescape (escapedInProperty c ++ rest) = c :: unescape rest := by
  unfold escapedInProperty
  split
  · simp [unescape]
  · simp [unescape]
  · exact unescape_escapedInData c rest

theorem unescape_data (text : String) : unescape (data text).toList = text.toList := by
  rw [data, String.toList_ofList, unescape_flatMap unescape_escapedInData]

theorem unescape_property (text : String) : unescape (property text).toList = text.toList := by
  rw [property, String.toList_ofList, unescape_flatMap unescape_escapedInProperty]

theorem data_injective : Function.Injective data := fun s t h =>
  String.toList_injective (by rw [← unescape_data s, h, unescape_data])

theorem property_injective : Function.Injective property := fun s t h =>
  String.toList_injective (by rw [← unescape_property s, h, unescape_property])

/-- What ends a line or a part of a command. -/
def marks : List Char := ['\n', '\r', ':', ',']

theorem forall_lineEnds {p : Char → Prop} (hline : p '\n') (hreturn : p '\r') : ∀ c ∈ ['\n', '\r'], p c :=
  List.forall_mem_cons.mpr ⟨hline, List.forall_mem_singleton.mpr hreturn⟩

theorem forall_marks {p : Char → Prop} (hends : ∀ c ∈ ['\n', '\r'], p c) (hcolon : p ':') (hcomma : p ',') :
    ∀ c ∈ marks, p c := by
  have hbehind : ∀ c ∈ [':', ','], p c := List.forall_mem_cons.mpr ⟨hcolon, List.forall_mem_singleton.mpr hcomma⟩
  exact List.forall_mem_append.mpr ⟨hends, hbehind⟩

/-- What ends a line is replaced, and no code contains it. -/
theorem notMem_data (text : String) : ∀ c ∈ ['\n', '\r'], c ∉ (data text).toList := by
  rw [data_eq_replaced]
  apply forall_lineEnds
  · exact notMem_replaced (by decide) (.inl rfl)
  · exact notMem_replaced (by decide) (.inr (notMem_replaced (by decide) (.inl rfl)))

theorem notMem_property (text : String) : ∀ c ∈ marks, c ∉ (property text).toList := by
  rw [property_eq_replaced]
  apply forall_marks
  · have hcodes : ∀ c ∈ ['\n', '\r'], c ∉ ['%', '3', 'A'] ∧ c ∉ ['%', '2', 'C'] :=
      forall_lineEnds (by decide) (by decide)
    intro c hc
    obtain ⟨hcolon, hcomma⟩ := hcodes c hc
    exact notMem_replaced hcomma (.inr (notMem_replaced hcolon (.inr (notMem_data text c hc))))
  · exact notMem_replaced (by decide) (.inr (notMem_replaced (by decide) (.inl rfl)))
  · exact notMem_replaced (by decide) (.inl rfl)

/-! ### Lines of commands -/

/-- The properties of a record, by name. -/
def fields (r : Record) : List (String × List Char) :=
  [("file", (property r.file.text).toList)] ++ r.line.toList.map (fun n => ("line", Nat.toDigits 10 n)) ++
    r.column.toList.map (fun n => ("col", Nat.toDigits 10 n)) ++ [("title", (property r.rule).toList)]

/-- A name, an equals sign and a value. -/
def fieldText (field : String × List Char) : List Char := field.1.toList ++ '=' :: field.2

/-- A command without the newline that ends it. -/
def lineOf (r : Record) : List Char :=
  "::".toList ++ (level r.severity).toList ++ ' ' :: (properties r).toList ++ ':' :: ':' :: (data r.message).toList

theorem toString_string (text : String) : toString text = text := rfl

theorem toList_command (r : Record) : (command r).toList = lineOf r ++ ['\n'] := by
  simp [command, lineOf, toString_string]

theorem toList_properties (r : Record) : (properties r).toList = [','].intercalate ((fields r).map fieldText) := by
  cases hline : r.line <;> cases hcolumn : r.column <;>
    simp [properties, fields, fieldText, numberProperty, hline, hcolumn, List.intercalate_cons_cons, toString_string]

theorem notMem_toDigits (n : Nat) : ∀ c ∈ marks, c ∉ Nat.toDigits 10 n := by
  have hmarks : ∀ c ∈ marks, c.isDigit = false := forall_marks (forall_lineEnds rfl rfl) rfl rfl
  intro c hc hmem
  have hdigit := Nat.isDigit_of_mem_toDigits (by decide) (by decide) hmem
  rw [hmarks c hc] at hdigit
  cases hdigit

/-- The name of a field ends at its equals sign, and no mark is in a field. -/
theorem notMem_of_mem_fields {r : Record} {field : String × List Char} (h : field ∈ fields r) :
    '=' ∉ field.1.toList ∧ ∀ c ∈ marks, c ∉ fieldText field := by
  have hparts : field.1 ∈ ["file", "line", "col", "title"] ∧ ∀ c ∈ marks, c ∉ field.2 := by
    simp only [fields, List.mem_append, List.mem_singleton, List.mem_map] at h
    rcases h with ((rfl | ⟨n, -, rfl⟩) | ⟨n, -, rfl⟩) | rfl <;> dsimp only
    · exact ⟨by simp, notMem_property r.file.text⟩
    · exact ⟨by simp, notMem_toDigits n⟩
    · exact ⟨by simp, notMem_toDigits n⟩
    · exact ⟨by simp, notMem_property r.rule⟩
  have hnames : ∀ name ∈ ["file", "line", "col", "title"], '=' ∉ name.toList ∧
      '\n' ∉ name.toList ++ ['='] ∧ '\r' ∉ name.toList ++ ['='] ∧ ':' ∉ name.toList ++ ['='] ∧
        ',' ∉ name.toList ++ ['='] := by decide
  obtain ⟨hequals, hline, hreturn, hcolon, hcomma⟩ := hnames _ hparts.1
  have hname : ∀ c ∈ marks, c ∉ field.1.toList ++ ['='] :=
    forall_marks (forall_lineEnds hline hreturn) hcolon hcomma
  refine ⟨hequals, fun c hc => ?_⟩
  rw [fieldText, List.append_cons, List.mem_append, not_or]
  exact ⟨hname c hc, hparts.2 c hc⟩

theorem notMem_intercalate {c separator : Char} {pieces : List (List Char)} (hc : c ≠ separator)
    (h : ∀ piece ∈ pieces, c ∉ piece) : c ∉ [separator].intercalate pieces := by
  induction pieces with
  | nil => exact List.not_mem_nil
  | cons piece pieces ih =>
    obtain ⟨hpiece, hpieces⟩ := List.forall_mem_cons.mp h
    cases pieces with
    | nil => rwa [List.intercalate_singleton]
    | cons next pieces =>
      rw [List.intercalate_cons_cons, List.mem_append, List.mem_append, List.mem_singleton]
      rintro ((hmem | hmem) | hmem)
      · exact hpiece hmem
      · exact hc hmem
      · exact ih hpieces hmem

theorem notMem_properties (r : Record) {c : Char} (hc : c ∈ marks) (hcomma : c ≠ ',') : c ∉ (properties r).toList := by
  rw [toList_properties]
  refine notMem_intercalate hcomma fun piece hpiece => ?_
  obtain ⟨field, hfield, rfl⟩ := List.mem_map.mp hpiece
  exact (notMem_of_mem_fields hfield).2 c hc

theorem notMem_lineOf (r : Record) : ∀ c ∈ ['\n', '\r'], c ∉ lineOf r := by
  have hmarks : ∀ c ∈ ['\n', '\r'], c ∈ marks ∧ c ≠ ',' ∧ c ∉ "::".toList ∧ c ≠ ' ' ∧ c ≠ ':' :=
    forall_lineEnds (by decide) (by decide)
  have hlevel : ∀ c ∈ ['\n', '\r'], c ∉ (level r.severity).toList := by
    cases r.severity <;> exact forall_lineEnds (by decide) (by decide)
  intro c hc
  obtain ⟨hmark, hcomma, hcolons, hspace, hcolon⟩ := hmarks c hc
  simp only [lineOf, List.mem_append, List.mem_cons, not_or]
  exact ⟨⟨⟨hcolons, hlevel c hc⟩, hspace, notMem_properties r hmark hcomma⟩, hcolon, hcolon, notMem_data _ c hc⟩

/-! ### Reading -/

/-- What a workflow command says. -/
structure Remark where
  severity : Severity
  file : Path
  line : Option Nat
  column : Option Nat
  rule : String
  message : String
  deriving DecidableEq

namespace Remark

def ofRecord (r : Record) : Remark := ⟨r.severity, r.file, r.line, r.column, r.rule, r.message⟩

def severity? (text : List Char) : Option Severity := Severity.all.find? fun s => (level s).toList == text

theorem severity?_level (s : Severity) : severity? (level s).toList = some s := by
  cases s <;> decide

/-- A field, cut at its equals sign. -/
def readField (text : List Char) : String × List Char := (String.ofList (cutAt '=' text).1, (cutAt '=' text).2)

/-- What a line says if it is a workflow command. -/
def ofLine? (line : List Char) : Option Remark := do
  let (level, behind) := cutAt ' ' (line.drop 2)
  let (properties, behind) := cutAt ':' behind
  let fields := (splitOnChar ',' properties).map readField
  let file ← fields.lookup "file"
  let rule ← fields.lookup "title"
  return {
    severity := ← severity? level
    file := ⟨String.ofList (unescape file)⟩
    line := (fields.lookup "line").map (Nat.ofDigitChars 10 · 0)
    column := (fields.lookup "col").map (Nat.ofDigitChars 10 · 0)
    rule := String.ofList (unescape rule)
    message := String.ofList (unescape behind.tail) }

theorem map_readField (r : Record) : (splitOnChar ',' (properties r).toList).map readField = fields r := by
  have hne : (fields r).map fieldText ≠ [] := by simp [fields]
  have hcomma : ∀ piece ∈ (fields r).map fieldText, ',' ∉ piece := by
    intro piece hpiece
    obtain ⟨field, hfield, rfl⟩ := List.mem_map.mp hpiece
    exact (notMem_of_mem_fields hfield).2 ',' (by decide)
  rw [toList_properties, splitOnChar_intercalate hne hcomma, List.map_map]
  refine (List.map_congr_left fun field hfield => ?_).trans (List.map_id _)
  simp only [Function.comp_apply, readField, fieldText, cutAt_append (notMem_of_mem_fields hfield).1,
    String.ofList_toList, id_eq]

theorem lookup_fields (r : Record) :
    (fields r).lookup "file" = some (property r.file.text).toList ∧
    (fields r).lookup "title" = some (property r.rule).toList ∧
    ((fields r).lookup "line").map (Nat.ofDigitChars 10 · 0) = r.line ∧
    ((fields r).lookup "col").map (Nat.ofDigitChars 10 · 0) = r.column := by
  have hnumber (n : Nat) : Nat.ofDigitChars 10 (Nat.toDigits 10 n) 0 = n :=
    Nat.ofDigitChars_toDigits (by decide) (by decide)
  cases hline : r.line <;> cases hcolumn : r.column <;> simp [fields, hline, hcolumn, hnumber, List.lookup_cons]

/-- A line says what its record says. -/
theorem ofLine?_lineOf (r : Record) : ofLine? (lineOf r) = some (ofRecord r) := by
  have hlevel : ' ' ∉ (level r.severity).toList := by cases r.severity <;> decide
  have hproperties : ':' ∉ (properties r).toList := notMem_properties r (by decide) (by decide)
  have hfirst : cutAt ' ' ((lineOf r).drop 2) =
      ((level r.severity).toList, (properties r).toList ++ ':' :: ':' :: (data r.message).toList) := by
    rw [← cutAt_append hlevel]
    simp [lineOf]
  obtain ⟨hfile, hrule, hline, hcolumn⟩ := lookup_fields r
  simp [ofLine?, hfirst, cutAt_append hproperties, map_readField, hfile, hrule, hline, hcolumn, severity?_level,
    unescape_data, unescape_property, ofRecord]

end Remark

/-! ### Output -/

theorem toList_join_command (records : List Record) :
    (String.join (records.map command)).toList = (records.map lineOf).flatMap (· ++ ['\n']) := by
  rw [String.toList_join, List.flatMap_map, List.flatMap_map]
  exact congrArg (records.flatMap ·) (funext toList_command)

theorem lineOf_startsWith (r : Record) :
    ∃ start ∈ ["::error", "::warning", "::notice"], start.toList <+: lineOf r := by
  have hstart : ("::" ++ level r.severity).toList <+: lineOf r := by simp [lineOf]
  refine ⟨_, ?_, hstart⟩
  cases r.severity <;> decide

/-- The output for records has one line for each, which starts with a command and says what the record says, whatever
characters are in the names of files and rules and in the messages. -/
theorem commands_read_back (records : List Record) :
    let output := String.join (records.map command)
    let lines := linesOf output.toList
    (∀ (report : Report) (options : RenderOptions), report.records options = records →
      report.render .github options = output) ∧
    lines.length = records.length ∧ output.toList.count '\n' = records.length ∧ '\r' ∉ output.toList ∧
    (∀ line ∈ lines, ∃ start ∈ ["::error", "::warning", "::notice"], start.toList <+: line) ∧
    lines.map Remark.ofLine? = records.map (fun r => some (.ofRecord r)) ∧
    Function.Injective data ∧ Function.Injective property ∧
    (∀ text, ∀ c ∈ ['\n', '\r'], c ∉ (data text).toList) ∧
    ∀ text, ∀ c ∈ ['\n', '\r', ':', ','], c ∉ (property text).toList := by
  intro output lines
  have houtput : output.toList = (records.map lineOf).flatMap (· ++ ['\n']) := toList_join_command records
  have hends : ∀ line ∈ records.map lineOf, ∀ c ∈ ['\n', '\r'], c ∉ line := by
    intro line hline
    obtain ⟨r, -, rfl⟩ := List.mem_map.mp hline
    exact notMem_lineOf r
  have hlines : lines = records.map lineOf := by
    simp only [lines, houtput, linesOf_flatMap hends]
  refine ⟨?_, ?_, ?_, ?_, ?_, ?_, data_injective, property_injective, notMem_data, notMem_property⟩
  · rintro report options rfl
    rfl
  · rw [hlines, List.length_map]
  · rw [houtput, count_flatMap_line fun line hline => hends line hline '\n' (by decide), List.length_map]
  · rw [houtput, List.mem_flatMap]
    rintro ⟨line, hline, hmem⟩
    rw [List.mem_append] at hmem
    exact hmem.elim (hends line hline '\r' (by decide)) (by decide)
  · rw [hlines]
    intro line hline
    obtain ⟨r, -, rfl⟩ := List.mem_map.mp hline
    exact lineOf_startsWith r
  · rw [hlines, List.map_map]
    exact List.map_congr_left fun r _ => Remark.ofLine?_lineOf r

/-- A violation whose file, rule and message are full of marks, percent codes and commands. -/
theorem commands_read_back_marks :
    let v : Violation :=
      { rule := "R,line=3:%3A", severity := .error, file := ⟨"a,b:c\n%2C.cs"⟩, line := 12, column := 3
        message := "50%\r\n::warning file=x::%0A, y", context := none, fix := none }
    let report : Report := { violations := [v] }
    report.records {} = [.ofViolation v] ∧
    '\n' ∉ (data v.message).toList ∧ ':' ∉ (property v.rule).toList ∧
    (linesOf (report.render .github {}).toList).map Remark.ofLine? =
      [some ⟨.error, v.file, some 12, some 3, v.rule, v.message⟩] := by
  intro v report
  have hrecords : report.records {} = [.ofViolation v] := by
    simp [Report.records, report, sortBy]
  obtain ⟨houtput, -, -, -, -, hread, -, -, hdata, hproperty⟩ := commands_read_back [.ofViolation v]
  refine ⟨hrecords, hdata v.message '\n' (by decide), hproperty v.rule ':' (by decide), ?_⟩
  rw [houtput report {} hrecords, hread]
  rfl

end WorkflowCommand

end CSharpStyle
