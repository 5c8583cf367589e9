import CSharpStyle.Proofs.Rendering.Grouping
import CSharpStyle.Proofs.Rendering.WorkflowCommand
import Mathlib.Algebra.GroupWithZero.Nat

/-!
# The lines of the text for readers

Without the codes of styles the text consists of lines: for each file its heading, the lines about its records and an
empty line, and a summary at the end. If no line end and no code is in what the records say, nor a blank in the name of
a rule, then what the records say is read back from the lines.

* `Styled`: a text with codes of styles put in, which a reader does not see.
* `TextFormat.styled_render`, `TextFormat.toList_render`: the output line by line, up to styles and without colors.
* `TextFormat.numbersIn_summaryLine`: the numbers in the summary.
* `TextFormat.sections_render`: the headings, and under each heading what the records say.
-/

namespace CSharpStyle

open WorkflowCommand (Remark toString_string)

/-! ### Styles -/

/-- The text `shown` is `plain` with codes of styles put in, if styles are wanted at all. -/
inductive Styled (enabled : Bool) : List Char → List Char → Prop
  | nil : Styled enabled [] []
  | cons (c : Char) {plain shown : List Char} (h : Styled enabled plain shown) :
    Styled enabled (c :: plain) (c :: shown)
  | code {digits plain shown : List Char} (henabled : enabled = true) (hdigits : digits.all (·.isDigit))
    (h : Styled enabled plain shown) : Styled enabled plain (['\x1b', '['] ++ digits ++ 'm' :: shown)

namespace Styled

variable {enabled : Bool} {plain plain' shown shown' : List Char}

theorem refl (text : List Char) : Styled enabled text text := by
  induction text with
  | nil => exact .nil
  | cons c text ih => exact .cons c ih

theorem append (h : Styled enabled plain shown) (h' : Styled enabled plain' shown') :
    Styled enabled (plain ++ plain') (shown ++ shown') := by
  induction h with
  | nil => exact h'
  | cons c _ ih => exact .cons c ih
  | code henabled hdigits _ ih => simpa using ih.code henabled hdigits

/-- Texts one behind the other are shown one behind the other. -/
theorem flatMap {α : Type} {plain shown : α → List Char} (h : ∀ a, Styled enabled (plain a) (shown a))
    (items : List α) : Styled enabled (items.flatMap plain) (items.flatMap shown) := by
  induction items with
  | nil => exact .nil
  | cons a items ih => exact (h a).append ih

theorem intercalate {α : Type} {plain shown : α → List Char} (h : ∀ a, Styled enabled (plain a) (shown a))
    (separator : List Char) (items : List α) :
    Styled enabled (separator.intercalate (items.map plain)) (separator.intercalate (items.map shown)) := by
  induction items with
  | nil => exact .nil
  | cons a items ih =>
    cases items with
    | nil => simpa using h a
    | cons b items => simpa using (h a).append ((refl separator).append ih)

theorem eq_of_not_enabled (h : Styled false plain shown) : shown = plain := by
  induction h with
  | nil => rfl
  | cons c _ ih => rw [ih]
  | code henabled => cases henabled

end Styled

/-- The text without codes of styles; a code has begun already if `inside`. -/
def withoutCodes (inside : Bool) : List Char → List Char
  | [] => []
  | c :: rest =>
    if inside then withoutCodes (c != 'm') rest
    else if c = '\x1b' then withoutCodes true rest
    else c :: withoutCodes false rest

theorem withoutCodes_digits {digits : List Char} (h : digits.all (·.isDigit)) (rest : List Char) :
    withoutCodes true (digits ++ 'm' :: rest) = withoutCodes false rest := by
  induction digits with
  | nil => rfl
  | cons c digits ih =>
    obtain ⟨hc, hdigits⟩ := Bool.and_eq_true_iff.mp h
    have hne : (c != 'm') = true := bne_iff_ne.mpr (by rintro rfl; cases hc)
    rw [List.cons_append, withoutCodes, if_pos rfl, hne, ih hdigits]

/-- A text that contains no code is read off what is shown of it. -/
theorem Styled.withoutCodes {enabled : Bool} {plain shown : List Char} (h : Styled enabled plain shown)
    (hplain : '\x1b' ∉ plain) : withoutCodes false shown = plain := by
  induction h with
  | nil => rfl
  | cons c _ ih =>
    obtain ⟨hc, hplain⟩ := List.ne_and_not_mem_of_not_mem_cons hplain
    rw [CSharpStyle.withoutCodes, if_neg Bool.false_ne_true, if_neg (Ne.symm hc), ih hplain]
  | code _ hdigits _ ih => exact (withoutCodes_digits hdigits _).trans (ih hplain)

namespace TextStyle

theorem isDigit_code (s : TextStyle) : s.code.toList.all (·.isDigit) := by
  cases s <;> decide

theorem styled_restarted (s : TextStyle) (text : List Char) : Styled true text (s.restarted text) := by
  fun_induction restarted s text with
  | case1 rest ih =>
    have hstart : Styled true rest (s.start ++ s.restarted rest) := by
      simpa [start] using ih.code rfl s.isDigit_code
    exact (Styled.refl reset).append hstart
  | case2 c rest _ ih => exact .cons c ih
  | case3 => exact .nil

theorem styled_paint (s : TextStyle) (enabled : Bool) (text : String) :
    Styled enabled text.toList (s.paint enabled text).toList := by
  cases enabled with
  | false => exact .refl _
  | true =>
    have hreset : Styled true [] reset := .code rfl (show ['0'].all (·.isDigit) by decide) .nil
    have htext := (s.styled_restarted text.toList).append hreset
    simpa [paint, start] using htext.code rfl s.isDigit_code

end TextStyle

/-! ### Lines -/

/-- Lines, each ended by a newline. -/
def linesText (lines : List String) : List Char := lines.flatMap fun line => line.toList ++ ['\n']

namespace TextFormat

variable (options : RenderOptions)

def pluralWord (n : Nat) (word : String) : String := if n = 1 then word else word ++ "s"

/-- What records are counted as: the numbers that are not zero, each with its word and the style of both. -/
def numbers (records : List Record) : List (Nat × String × TextStyle) :=
  let errors := countOf records .error
  let warnings := countOf records .warning
  let diagnostics := records.countP (·.isDiagnostic)
  [(errors, pluralWord errors "error", .red), (warnings, pluralWord warnings "warning", .yellow),
    (countOf records .info, "info", .cyan), (diagnostics, pluralWord diagnostics "diagnostic", .red)].filter (·.1 ≠ 0)

/-- The line of a record. -/
def recordLine (r : Record) : String := s!"  {r.place} {r.rule} [{r.severity.text}] {r.message}"

/-- The lines about a record: its own, and its context and its suggestion as far as they are wanted. -/
def recordLines (r : Record) : List String :=
  recordLine r ::
    ((if options.showContext then r.context.toList.map fun context => s!"    | {context}" else []) ++
      if options.showSuggestions then r.suggestion.toList.map fun suggestion => s!"    = help: {suggestion}" else [])

/-- The lines about a file. -/
def fileLines (file : Path) (records : List Record) : List String :=
  file.text :: (records.flatMap (recordLines options) ++ [""])

/-- The numbers and their words. -/
def countsText (records : List Record) : String :=
  if records.isEmpty then "0 violations"
  else ", ".intercalate ((numbers records).map fun number => s!"{number.1} {number.2.1}")

/-- The line that sums the records up. -/
def summaryLine (report : Report) (records : List Record) : String :=
  let files := pluralWord report.files "file"
  let mark := if report.isCancelled then " (cancelled)" else ""
  s!"Summary: {countsText records} in {report.files} {files}{mark}"

/-- The lines about some records, which are grouped by file. -/
def reportLines (report : Report) (records : List Record) (groups : List (Path × List Record)) : List String :=
  (if records.isEmpty then ["No style violations found"] else []) ++
    (groups.flatMap fun group => fileLines options group.1 group.2) ++ [summaryLine report records]

/-! ### Numbers of the summary -/

theorem pluralWord_mem (n : Nat) (word : String) : pluralWord n word ∈ [word, word ++ "s"] := by
  unfold pluralWord
  split
  · exact List.mem_cons_self
  · exact List.mem_cons_of_mem _ (List.mem_singleton_self _)

/-- The words of the numbers. -/
def numberWords : List String :=
  ["error", "errors", "warning", "warnings", "info", "diagnostic", "diagnostics"]

theorem word_mem_numberWords {records : List Record} {number : Nat × String × TextStyle}
    (h : number ∈ numbers records) : number.2.1 ∈ numberWords := by
  have hmem := List.mem_of_mem_filter h
  simp only [List.mem_cons, List.not_mem_nil, or_false] at hmem
  rcases hmem with rfl | rfl | rfl | rfl
  · exact (show ["error", "errors"] ⊆ numberWords by decide) (pluralWord_mem _ _)
  · exact (show ["warning", "warnings"] ⊆ numberWords by decide) (pluralWord_mem _ _)
  · exact (show "info" ∈ numberWords by decide)
  · exact (show ["diagnostic", "diagnostics"] ⊆ numberWords by decide) (pluralWord_mem _ _)

/-- Every record is counted once. -/
theorem sum_counts (records : List Record) :
    countOf records .error + countOf records .warning + countOf records .info + records.countP (·.isDiagnostic) =
      records.length := by
  induction records with
  | nil => rfl
  | cons r records ih =>
    simp only [countOf] at ih
    cases hkind : r.isDiagnostic <;> cases hseverity : r.severity <;>
      simp [countOf, hkind, hseverity] <;> omega

theorem sum_filter_ne_zero {α : Type} (numbers : List (Nat × α)) :
    ((numbers.filter (·.1 ≠ 0)).map (·.1)).sum = (numbers.map (·.1)).sum := by
  induction numbers with
  | nil => rfl
  | cons number numbers ih =>
    by_cases hzero : number.1 = 0
    · rw [List.filter_cons_of_neg (by simpa using hzero), ih, List.map_cons, List.sum_cons, hzero, Nat.zero_add]
    · rw [List.filter_cons_of_pos (by simpa using hzero), List.map_cons, List.map_cons, List.sum_cons, List.sum_cons,
        ih]

/-- The numbers add up to the number of records. -/
theorem sum_numbers (records : List Record) : ((numbers records).map (·.1)).sum = records.length := by
  rw [numbers, sum_filter_ne_zero, ← sum_counts records]
  simp [Nat.add_assoc]

theorem numbers_eq_nil_iff {records : List Record} : numbers records = [] ↔ records = [] := by
  constructor
  · intro h
    have hsum := sum_numbers records
    rw [h] at hsum
    exact List.length_eq_zero_iff.mp hsum.symm
  · rintro rfl
    rfl

theorem plural_eq (n : Nat) (word : String) : plural n word = s!"{n} {pluralWord n word}" := by
  unfold plural pluralWord
  split
  · rfl
  · exact String.append_assoc ..

theorem summaryParts_eq_map (records : List Record) :
    summaryParts options records =
      (numbers records).map fun number => number.2.2.paint options.useColors s!"{number.1} {number.2.1}" := by
  let text (number : Nat × String × TextStyle) : String :=
    number.2.2.paint options.useColors s!"{number.1} {number.2.1}"
  have hpart (n : Nat) (word : String) (style : TextStyle) (others : List (Nat × String × TextStyle)) :
      (((n, word, style) :: others).filter (·.1 ≠ 0)).map text =
        (if n = 0 then [] else [style.paint options.useColors s!"{n} {word}"]) ++
          (others.filter (·.1 ≠ 0)).map text := by
    by_cases hzero : n = 0 <;> simp [hzero, text]
  have hinfo (n : Nat) : s!"{n} info" = s!"{n} " ++ toString "info" := by
    rw [String.append_assoc]
    rfl
  show _ = (numbers records).map text
  simp only [summaryParts, numbers, hpart, plural_eq, hinfo]
  simp

/-! ### The output line by line -/

theorem linesText_cons (line : String) (lines : List String) :
    linesText (line :: lines) = line.toList ++ '\n' :: linesText lines := by
  simp [linesText]

theorem linesText_append (lines lines' : List String) :
    linesText (lines ++ lines') = linesText lines ++ linesText lines' :=
  List.flatMap_append

theorem styled_contextLine (r : Record) :
    Styled options.useColors
      (linesText (if options.showContext then r.context.toList.map fun context => s!"    | {context}" else []))
      (contextLine options r).toList := by
  cases hshow : options.showContext <;> cases hcontext : r.context
  case true.some context =>
    have hpaint := TextStyle.dim.styled_paint options.useColors s!"    | {context}"
    simpa [contextLine, hshow, hcontext, linesText] using hpaint.append (.refl ['\n'])
  all_goals simpa [contextLine, hshow, hcontext, linesText] using Styled.nil

theorem styled_suggestionLine (r : Record) :
    Styled options.useColors
      (linesText (if options.showSuggestions then
        r.suggestion.toList.map fun suggestion => s!"    = help: {suggestion}" else []))
      (suggestionLine options r).toList := by
  cases hshow : options.showSuggestions <;> cases hsuggestion : r.suggestion
  case true.some suggestion =>
    simpa [suggestionLine, hshow, hsuggestion, linesText, toString_string] using Styled.refl _
  all_goals simpa [suggestionLine, hshow, hsuggestion, linesText] using Styled.nil

theorem styled_recordText (r : Record) :
    Styled options.useColors (linesText (recordLines options r)) (recordText options r).toList := by
  have hplace := TextStyle.dim.styled_paint options.useColors r.place
  have hseverity := (TextStyle.ofSeverity r.severity).styled_paint options.useColors r.severity.text
  have hfirst := ((Styled.refl "  ".toList).append hplace).append
    ((Styled.refl (" ".toList ++ r.rule.toList ++ " [".toList)).append
      (hseverity.append (.refl ("] ".toList ++ r.message.toList ++ ['\n']))))
  have hall := (hfirst.append (styled_contextLine options r)).append (styled_suggestionLine options r)
  simpa [recordText, recordLines, recordLine, linesText_cons, linesText_append, toString_string] using hall

theorem styled_groupText (file : Path) (records : List Record) :
    Styled options.useColors (linesText (fileLines options file records)) (groupText options file records).toList := by
  have hheading := TextStyle.bold.styled_paint options.useColors file.text
  have hrecords := Styled.flatMap (styled_recordText options) records
  have hall := (hheading.append (.refl ['\n'])).append (hrecords.append (.refl ['\n']))
  simpa [groupText, fileLines, linesText, String.toList_join, List.flatMap_map, List.flatMap_assoc] using hall

theorem styled_summary (report : Report) (records : List Record) :
    Styled options.useColors ((summaryLine report records).toList ++ ['\n'])
      (summary options report records).toList := by
  have htitle := TextStyle.bold.styled_paint options.useColors "Summary:"
  have hcounts : Styled options.useColors (countsText records).toList
      (if (summaryParts options records).isEmpty then TextStyle.green.paint options.useColors "0 violations"
        else ", ".intercalate (summaryParts options records)).toList := by
    have hempty : (summaryParts options records).isEmpty = records.isEmpty := by
      rw [summaryParts_eq_map, Bool.eq_iff_iff]
      simp [numbers_eq_nil_iff]
    rw [countsText, hempty, summaryParts_eq_map]
    split
    · exact TextStyle.green.styled_paint options.useColors "0 violations"
    · simpa [String.toList_intercalate, Function.comp_def] using
        Styled.intercalate (fun number => number.2.2.styled_paint options.useColors s!"{number.1} {number.2.1}")
          ", ".toList (numbers records)
  have hall := ((htitle.append (.refl " ".toList)).append hcounts).append
    (.refl (" in ".toList ++ report.files.repr.toList ++ " ".toList ++ (pluralWord report.files "file").toList ++
      (if report.isCancelled then " (cancelled)" else "").toList ++ ['\n']))
  simpa [summary, summaryLine, plural_eq, toString_string] using hall

/-- Up to styles the output consists of the lines about the records, which are grouped by file. -/
theorem styled_render (report : Report) :
    Styled options.useColors
      (linesText (reportLines options report (report.records options) (groups (report.records options))))
      (render options report).toList := by
  generalize hrecords : report.records options = records
  have hnothing : Styled options.useColors
      (linesText (if records.isEmpty then ["No style violations found"] else []))
      (if records.isEmpty then TextStyle.green.paint options.useColors "No style violations found" ++ "\n"
        else "").toList := by
    split
    · simpa [linesText] using (TextStyle.green.styled_paint options.useColors "No style violations found").append
        (.refl ['\n'])
    · exact .nil
  have hgroups := Styled.flatMap (fun group : Path × List Record => styled_groupText options group.1 group.2)
    (groups records)
  have hall := (hnothing.append hgroups).append (styled_summary options report records)
  simpa [render, hrecords, reportLines, linesText, String.toList_join, List.flatMap_map, List.flatMap_assoc]
    using hall

/-- Without colors it consists of nothing else. -/
theorem toList_render (h : options.useColors = false) (report : Report) :
    (render options report).toList =
      linesText (reportLines options report (report.records options) (groups (report.records options))) := by
  have hstyled := styled_render options report
  rw [h] at hstyled
  exact hstyled.eq_of_not_enabled

end TextFormat

/-! ### Numbers in a text -/

/-- The numbers in a text, each as far as its digits go. -/
def numbersIn (text : List Char) : List Nat :=
  ((text.splitOnP (!·.isDigit)).filter (· ≠ [])).map (Nat.ofDigitChars 10 · 0)

theorem numbersIn_append {words : List Char} (h : words.all (!·.isDigit)) (rest : List Char) :
    numbersIn (words ++ rest) = numbersIn rest := by
  induction words with
  | nil => rfl
  | cons c words ih =>
    obtain ⟨hc, hwords⟩ := Bool.and_eq_true_iff.mp h
    have hsplit : (c :: (words ++ rest)).splitOnP (!·.isDigit) = [] :: (words ++ rest).splitOnP (!·.isDigit) :=
      List.splitOnP_append_cons_of_forall_mem (List.forall_mem_nil _) c hc (words ++ rest)
    rw [List.cons_append, ← ih hwords, numbersIn, hsplit]
    rfl

theorem numbersIn_number (n : Nat) {c : Char} (hc : c.isDigit = false) (rest : List Char) :
    numbersIn (Nat.toDigits 10 n ++ c :: rest) = n :: numbersIn rest := by
  have hdigits : ∀ d ∈ Nat.toDigits 10 n, (!d.isDigit) = false := by
    intro d hd
    rw [Nat.isDigit_of_mem_toDigits (by decide) (by decide) hd]
    rfl
  rw [numbersIn, List.splitOnP_append_cons_of_forall_mem hdigits c (by rw [hc]; rfl),
    List.filter_cons_of_pos (by simp), List.map_cons, Nat.ofDigitChars_ten_toDigits]
  rfl

/-- A number and a word, and others behind a comma. -/
theorem numbersIn_intercalate {numbers : List (Nat × String)} (hne : numbers ≠ [])
    (hwords : ∀ number ∈ numbers, number.2.toList.all (!·.isDigit)) (rest : List Char) :
    numbersIn ((", ".intercalate (numbers.map fun number => s!"{number.1} {number.2}")).toList ++ rest) =
      numbers.map (·.1) ++ numbersIn rest := by
  have hnumber {n : Nat} {word : String} (hword : word.toList.all (!·.isDigit)) (rest : List Char) :
      numbersIn (s!"{n} {word}".toList ++ rest) = n :: numbersIn rest := by
    have htext : s!"{n} {word}".toList ++ rest = Nat.toDigits 10 n ++ ' ' :: (word.toList ++ rest) := by
      simp [toString_string]
    rw [htext, numbersIn_number n rfl, numbersIn_append hword]
  induction numbers with
  | nil => exact absurd rfl hne
  | cons number numbers ih =>
    obtain ⟨hword, hwords⟩ := List.forall_mem_cons.mp hwords
    cases numbers with
    | nil => simpa using hnumber hword rest
    | cons second numbers =>
      rw [List.map_cons, String.intercalate_cons_of_ne_nil (by simp), String.toList_append, String.toList_append,
        List.append_assoc, List.append_assoc, hnumber hword, numbersIn_append (by decide), ih (by simp) hwords]
      rfl

namespace TextFormat

theorem numbersIn_countsText (records : List Record) :
    ∃ counts, counts.sum = records.length ∧
      ∀ rest, numbersIn ((countsText records).toList ++ rest) = counts ++ numbersIn rest := by
  cases records with
  | nil =>
    refine ⟨[0], rfl, fun rest => ?_⟩
    have hzero : numbersIn (Nat.toDigits 10 0 ++ ' ' :: ("violations".toList ++ rest)) =
        0 :: numbersIn ("violations".toList ++ rest) := numbersIn_number 0 rfl _
    exact hzero.trans (congrArg (0 :: ·) (numbersIn_append (by decide) rest))
  | cons r records =>
    refine ⟨(numbers (r :: records)).map (·.1), sum_numbers _, fun rest => ?_⟩
    have hwords : ∀ word ∈ numberWords, word.toList.all (!·.isDigit) := by decide
    have hne : (numbers (r :: records)).map (fun number => (number.1, number.2.1)) ≠ [] := by
      simp [numbers_eq_nil_iff]
    have hread := numbersIn_intercalate hne
      (List.forall_mem_map.mpr fun number hnumber => hwords _ (word_mem_numberWords hnumber)) rest
    simpa [countsText, Function.comp_def] using hread

/-- The numbers of the summary are those of the records and behind them the number of files. -/
theorem numbersIn_summaryLine (report : Report) (records : List Record) :
    ∃ counts, counts.sum = records.length ∧
      numbersIn (summaryLine report records).toList = counts ++ [report.files] := by
  obtain ⟨counts, hsum, hcounts⟩ := numbersIn_countsText records
  let mark := if report.isCancelled then " (cancelled)" else ""
  have hmark : mark.toList.all (!·.isDigit) := by
    unfold mark
    split <;> decide
  have hfiles : ∀ word ∈ ["file", "file" ++ "s"], word.toList.all (!·.isDigit) := by decide
  have hline : (summaryLine report records).toList =
      "Summary: ".toList ++ ((countsText records).toList ++ (" in ".toList ++
        (Nat.toDigits 10 report.files ++ ' ' ::
          ((pluralWord report.files "file").toList ++ (mark.toList ++ []))))) := by
    simp [summaryLine, mark, toString_string]
  refine ⟨counts, hsum, ?_⟩
  rw [hline, numbersIn_append (by decide), hcounts, numbersIn_append (by decide), numbersIn_number _ rfl,
    numbersIn_append (hfiles _ (pluralWord_mem ..)), numbersIn_append hmark]
  rfl

end TextFormat

/-! ### Reading back -/

/-- The text has no line end and no code in it. -/
def IsPlain (text : List Char) : Prop := '\n' ∉ text ∧ '\x1b' ∉ text

namespace IsPlain

variable {text text' : List Char}

instance (text : List Char) : Decidable (IsPlain text) := inferInstanceAs (Decidable ('\n' ∉ text ∧ '\x1b' ∉ text))

theorem append (h : IsPlain text) (h' : IsPlain text') : IsPlain (text ++ text') :=
  ⟨fun hmem => (List.mem_append.mp hmem).elim h.1 h'.1, fun hmem => (List.mem_append.mp hmem).elim h.2 h'.2⟩

theorem of_digits (h : ∀ c ∈ text, c.isDigit) : IsPlain text :=
  ⟨fun hmem => absurd (h '\n' hmem) (by decide), fun hmem => absurd (h '\x1b' hmem) (by decide)⟩

theorem repr (n : Nat) : IsPlain n.repr.toList := by
  rw [Nat.toList_repr]
  exact of_digits fun c => Nat.isDigit_of_mem_toDigits (by decide) (by decide)

theorem intercalate {separator : List Char} (hseparator : IsPlain separator) {pieces : List (List Char)}
    (h : ∀ piece ∈ pieces, IsPlain piece) : IsPlain (separator.intercalate pieces) := by
  induction pieces with
  | nil => exact show IsPlain [] by decide
  | cons piece pieces ih =>
    obtain ⟨hpiece, hpieces⟩ := List.forall_mem_cons.mp h
    cases pieces with
    | nil => simpa using hpiece
    | cons next pieces =>
      rw [List.intercalate_cons_cons]
      exact (hpiece.append hseparator).append (ih hpieces)

end IsPlain

/-- The severity that a word says; the least one is called `least`. -/
def Severity.ofWord? (least word : String) : Option Severity :=
  if word = "error" then some error else if word = "warning" then some warning
  else if word = least then some info else none

/-- What is printed of a record has no line end and no code in it, and the rule is a single word. -/
structure Record.IsPlain (r : Record) : Prop where
  file : CSharpStyle.IsPlain r.file.text.toList
  rule : CSharpStyle.IsPlain r.rule.toList
  word : ' ' ∉ r.rule.toList
  message : CSharpStyle.IsPlain r.message.toList
  context : ∀ context ∈ r.context, CSharpStyle.IsPlain context.toList
  suggestion : ∀ suggestion ∈ r.suggestion, CSharpStyle.IsPlain suggestion.toList

namespace TextFormat

/-- The number that a text consists of. -/
def number? (text : List Char) : Option Nat :=
  if text ≠ [] ∧ text.all (·.isDigit) then some (Nat.ofDigitChars 10 text 0) else none

/-- What a line under the heading `file` says, if it is the line of a record: behind two blanks the place, the rule, the
severity in brackets and the message. -/
def remark? (file : Path) : List Char → Option Remark
  | ' ' :: ' ' :: text =>
    let (place, behind) := cutAt ' ' text
    let (rule, behind) := cutAt ' ' behind
    let (severity, message) := cutAt ']' behind.tail
    let (line, column) := cutAt ':' place
    if place = [] then none
    else
      (Severity.ofWord? "info" (String.ofList severity)).map fun severity =>
        { severity, file, line := number? line, column := number? column, rule := String.ofList rule
          message := String.ofList message.tail }
  | _ => none

/-- The headings in some lines, and what is said under each of them: the lines up to an empty line are about the file.
No empty line is behind the line that sums the records up. -/
def sections : List (List Char) → List (Path × List Remark)
  | [] => []
  | heading :: lines =>
    match _h : lines.dropWhile (· ≠ []) with
    | [] => []
    | _ :: behind =>
      let file : Path := ⟨String.ofList heading⟩
      (file, (lines.takeWhile (· ≠ [])).filterMap (remark? file)) :: sections behind
termination_by lines => lines.length
decreasing_by
  have hle := (List.dropWhile_sublist (l := lines) (· ≠ [])).length_le
  simp_all
  omega

/-- The lines that a reader of the output sees. -/
def linesShown (output : String) : List (List Char) := (splitAtNewlines (withoutCodes false output.toList)).dropLast

/-- What is printed of a record under the heading `file`: a column is only printed behind a line. -/
def remarkUnder (file : Path) (r : Record) : Remark :=
  { severity := r.severity, file, line := r.line, column := r.line.bind fun _ => r.column, rule := r.rule
    message := r.message }

theorem number?_repr (n : Nat) : number? n.repr.toList = some n := by
  have hdigits : n.repr.toList.all (·.isDigit) := by
    rw [Nat.toList_repr, List.all_eq_true]
    exact fun c => Nat.isDigit_of_mem_toDigits (by decide) (by decide)
  rw [number?, if_pos ⟨by simp, hdigits⟩, Nat.toList_repr, Nat.ofDigitChars_ten_toDigits]

theorem notMem_repr {c : Char} (hc : c.isDigit = false) (n : Nat) : c ∉ n.repr.toList := by
  intro hmem
  rw [Nat.toList_repr] at hmem
  rw [Nat.isDigit_of_mem_toDigits (by decide) (by decide) hmem] at hc
  cases hc

/-- A place is a word, and it says what the line and the column are. -/
theorem place_read (r : Record) :
    r.place.toList ≠ [] ∧ ' ' ∉ r.place.toList ∧ IsPlain r.place.toList ∧
      number? (cutAt ':' r.place.toList).1 = r.line ∧
      number? (cutAt ':' r.place.toList).2 = r.line.bind fun _ => r.column := by
  cases hline : r.line with
  | none =>
    have hplace : r.place = "-" := by rw [Record.place, hline]
    rw [hplace]
    exact ⟨by decide, by decide, by decide, by decide, show number? (cutAt ':' "-".toList).2 = none by decide⟩
  | some line =>
    have hcolon : ':' ∉ line.repr.toList := notMem_repr rfl line
    have hblank : ' ' ∉ line.repr.toList := notMem_repr rfl line
    cases hcolumn : r.column with
    | none =>
      have hplace : r.place = line.repr := by rw [Record.place, hline, hcolumn]; rfl
      rw [hplace]
      refine ⟨by simp, hblank, .repr line, ?_, ?_⟩
      · exact (congrArg (number? ·.1) (cutAt_of_notMem hcolon)).trans (number?_repr line)
      · exact congrArg (number? ·.2) (cutAt_of_notMem hcolon)
    | some column =>
      have hplace : r.place.toList = line.repr.toList ++ ':' :: column.repr.toList := by
        simp [Record.place, hline, hcolumn, toString_string]
      have hbehind : IsPlain (':' :: column.repr.toList) := IsPlain.append (show IsPlain [':'] by decide) (.repr column)
      have hword : ' ' ∉ ':' :: column.repr.toList :=
        List.not_mem_cons_of_ne_of_not_mem (by decide) (notMem_repr rfl column)
      rw [hplace, cutAt_append hcolon]
      refine ⟨by simp, ?_, (IsPlain.repr line).append hbehind, number?_repr line, number?_repr column⟩
      exact fun hmem => (List.mem_append.mp hmem).elim hblank hword

variable {options} {file : Path} {r : Record}

theorem toList_recordLine (r : Record) :
    (recordLine r).toList = ' ' :: ' ' :: (r.place.toList ++ ' ' :: (r.rule.toList ++ ' ' :: '[' ::
      (r.severity.text.toList ++ ']' :: ' ' :: r.message.toList))) := by
  simp [recordLine, toString_string]

theorem remark?_recordLine (hrule : ' ' ∉ r.rule.toList) :
    remark? file (recordLine r).toList = some (remarkUnder file r) := by
  obtain ⟨hne, hblank, -, hline, hcolumn⟩ := place_read r
  have hbracket : ']' ∉ r.severity.text.toList := by cases r.severity <;> decide
  have hseverity : Severity.ofWord? "info" r.severity.text = some r.severity := by cases r.severity <;> decide
  rw [toList_recordLine, remark?]
  simp only [cutAt_append hblank, cutAt_append hrule, List.tail_cons, cutAt_append hbracket, hne, ↓reduceIte,
    String.ofList_toList, hseverity, Option.map_some, hline, hcolumn]
  rfl

/-- The other lines about a record begin with more blanks. -/
theorem exists_blanks {line : String} (h : line ∈ (recordLines options r).tail) :
    ∃ text : String, line.toList = [' ', ' ', ' '] ++ text.toList ∧
      ((∀ context ∈ r.context, IsPlain context.toList) → (∀ suggestion ∈ r.suggestion, IsPlain suggestion.toList) →
        IsPlain text.toList) := by
  rw [recordLines, List.tail_cons, List.mem_append] at h
  rcases h with h | h
  · obtain ⟨context, hcontext, rfl⟩ := List.mem_map.mp (List.mem_ite_nil_right.mp h).2
    refine ⟨s!" | {context}", by rw [String.toList_append, String.toList_append]; rfl, fun hplain _ => ?_⟩
    rw [String.toList_append]
    exact .append (by decide) (hplain context (Option.mem_toList.mp hcontext))
  · obtain ⟨suggestion, hsuggestion, rfl⟩ := List.mem_map.mp (List.mem_ite_nil_right.mp h).2
    refine ⟨s!" = help: {suggestion}", by rw [String.toList_append, String.toList_append]; rfl, fun _ hplain => ?_⟩
    rw [String.toList_append]
    exact .append (by decide) (hplain suggestion (Option.mem_toList.mp hsuggestion))

/-- Only the first of the lines about a record is that of a record. -/
theorem filterMap_recordLines (hrule : ' ' ∉ r.rule.toList) :
    ((recordLines options r).map String.toList).filterMap (remark? file) = [remarkUnder file r] := by
  have hdetails : (((recordLines options r).tail.map String.toList).filterMap (remark? file)) = [] := by
    refine List.filterMap_eq_nil_iff.mpr (List.forall_mem_map.mpr fun line hline => ?_)
    obtain ⟨text, htext, -⟩ := exists_blanks hline
    rw [htext]
    simp [remark?, cutAt]
  rw [recordLines, List.map_cons, List.filterMap_cons_some (remark?_recordLine hrule)]
  exact congrArg _ hdetails

/-- A section ends with an empty line. -/
theorem sections_append {own : List (List Char)} (hown : [] ∉ own) (behind : List (List Char)) :
    sections (file.text.toList :: (own ++ [] :: behind)) = (file, own.filterMap (remark? file)) :: sections behind := by
  have hne : ∀ line ∈ own, decide (line ≠ []) = true := by
    intro line hline
    exact decide_eq_true fun hnil => hown (hnil ▸ hline)
  have hdrop : (own ++ [] :: behind).dropWhile (· ≠ []) = [] :: behind := by
    rw [List.dropWhile_append_of_pos hne, List.dropWhile_cons_of_neg (by simp)]
  have htake : (own ++ [] :: behind).takeWhile (· ≠ []) = own := by
    rw [List.takeWhile_append_of_pos hne, List.takeWhile_cons_of_neg (by simp), List.append_nil]
  rw [sections]
  split
  · next hnone => rw [hdrop] at hnone; cases hnone
  · next hsome =>
    rw [hdrop] at hsome
    cases hsome
    rw [htake, String.ofList_toList]

theorem sections_eq_nil {heading : List Char} {lines : List (List Char)} (h : [] ∉ lines) :
    sections (heading :: lines) = [] := by
  have hdrop : lines.dropWhile (· ≠ []) = [] :=
    List.dropWhile_eq_nil_iff.mpr fun line hline => decide_eq_true fun hnil => h (hnil ▸ hline)
  rw [sections]
  split
  · rfl
  · next hsome => rw [hdrop] at hsome; cases hsome

/-- No line about a record is empty, and the lines about a record that is plain are plain. -/
theorem of_mem_recordLines {line : String} (h : line ∈ recordLines options r) :
    line.toList ≠ [] ∧ (r.IsPlain → IsPlain line.toList) := by
  rcases List.mem_cons.mp h with rfl | h
  · refine ⟨by rw [toList_recordLine]; simp, fun hplain => ?_⟩
    have hseverity : IsPlain r.severity.text.toList := by cases r.severity <;> decide
    have hmark (mark : List Char) (hmark : IsPlain mark) {text : List Char} (h : IsPlain text) :
        IsPlain (mark ++ text) := hmark.append h
    rw [toList_recordLine]
    exact hmark [' ', ' '] (by decide) ((place_read r).2.2.1.append (hmark [' '] (by decide) (hplain.rule.append
      (hmark [' ', '['] (by decide) (hseverity.append (hmark [']', ' '] (by decide) hplain.message))))))
  · obtain ⟨text, htext, hdetail⟩ := exists_blanks h
    rw [htext]
    refine ⟨by simp, fun hplain => ?_⟩
    exact .append (by decide) (hdetail hplain.context hplain.suggestion)

/-- The lines about the files are read back, whatever the line behind them is. -/
theorem sections_fileLines {groups : List (Path × List Record)} (hwords : ∀ g ∈ groups, ∀ r ∈ g.2, ' ' ∉ r.rule.toList)
    (summary : List Char) :
    sections ((groups.flatMap fun group => fileLines options group.1 group.2).map String.toList ++ [summary]) =
      groups.map fun group => (group.1, group.2.map (remarkUnder group.1)) := by
  induction groups with
  | nil => exact sections_eq_nil List.not_mem_nil
  | cons group groups ih =>
    obtain ⟨file, records⟩ := group
    obtain ⟨hown, hwords⟩ := List.forall_mem_cons.mp hwords
    have hne : [] ∉ (records.flatMap (recordLines options)).map String.toList := by
      intro hmem
      obtain ⟨line, hline, hnil⟩ := List.mem_map.mp hmem
      obtain ⟨r, -, hline⟩ := List.mem_flatMap.mp hline
      exact (of_mem_recordLines hline).1 hnil
    have hread : ((records.flatMap (recordLines options)).map String.toList).filterMap (remark? file) =
        records.map (remarkUnder file) := by
      rw [List.map_flatMap, List.filterMap_flatMap, ← List.flatMap_singleton' (records.map _), List.flatMap_map]
      exact List.flatMap_congr fun r hr => filterMap_recordLines (hown r hr)
    have hlines : ((((file, records) :: groups).flatMap fun group => fileLines options group.1 group.2).map
        String.toList ++ [summary]) =
        file.text.toList :: ((records.flatMap (recordLines options)).map String.toList ++ [] ::
          ((groups.flatMap fun group => fileLines options group.1 group.2).map String.toList ++ [summary])) := by
      simp [fileLines]
    rw [hlines, sections_append hne, hread, ih hwords, List.map_cons]

theorem isPlain_summaryLine (report : Report) (records : List Record) :
    IsPlain (summaryLine report records).toList := by
  have hcounts : IsPlain (countsText records).toList := by
    have hwords : ∀ word ∈ numberWords, IsPlain word.toList := by decide
    unfold countsText
    split
    · decide
    · rw [String.toList_intercalate, List.map_map]
      refine .intercalate (by decide) (List.forall_mem_map.mpr fun number hnumber => ?_)
      have hnumber := (IsPlain.repr number.1).append
        ((show IsPlain [' '] by decide).append (hwords _ (word_mem_numberWords hnumber)))
      simpa [toString_string] using hnumber
  have hfiles : ∀ word ∈ ["file", "file" ++ "s"], IsPlain word.toList := by decide
  have hmark : IsPlain (if report.isCancelled then " (cancelled)" else "").toList := by split <;> decide
  have hline := ((show IsPlain "Summary: ".toList by decide).append hcounts).append
    (((show IsPlain " in ".toList by decide).append (.repr report.files)).append
      (((show IsPlain " ".toList by decide).append (hfiles _ (pluralWord_mem report.files _))).append hmark))
  simpa [summaryLine, toString_string] using hline

/-- What a reader of the output sees are the lines of the report, if nothing in it is a line end or a code. -/
theorem linesShown_render {report : Report} (hplain : ∀ r ∈ report.records options, r.IsPlain)
    (hgroups : IsGrouping (report.records options) (groups (report.records options))) :
    linesShown (render options report) =
      (reportLines options report (report.records options) (groups (report.records options))).map String.toList := by
  generalize hrecords : report.records options = records at hplain hgroups
  have hnothing : ∀ line ∈ if records.isEmpty then ["No style violations found"] else [], IsPlain line.toList := by
    split <;> decide
  have hfiles : ∀ line ∈ (groups records).flatMap fun group => fileLines options group.1 group.2,
      IsPlain line.toList := by
    intro line hline
    obtain ⟨group, hgroup, hline⟩ := List.mem_flatMap.mp hline
    have hmem {r : Record} (hr : r ∈ group.2) : r ∈ records := by
      rw [← hgroups.flatten]
      exact List.mem_flatMap.mpr ⟨group, hgroup, hr⟩
    rcases List.mem_cons.mp hline with rfl | hline
    · obtain ⟨r, hr, hfile⟩ := Option.map_eq_some_iff.mp (hgroups.heading group hgroup)
      exact hfile ▸ (hplain r (hmem (List.mem_of_mem_head? hr))).file
    · rcases List.mem_append.mp hline with hline | hline
      · obtain ⟨r, hr, hline⟩ := List.mem_flatMap.mp hline
        exact (of_mem_recordLines hline).2 (hplain r (hmem hr))
      · rw [List.mem_singleton.mp hline]
        decide
  have hlines : ∀ line ∈ reportLines options report records (groups records), IsPlain line.toList :=
    List.forall_mem_append.mpr ⟨List.forall_mem_append.mpr ⟨hnothing, hfiles⟩,
      List.forall_mem_singleton.mpr (isPlain_summaryLine report records)⟩
  have hends : ∀ line ∈ (reportLines options report records (groups records)).map String.toList, '\n' ∉ line :=
    List.forall_mem_map.mpr fun line hline => (hlines line hline).1
  have hcodes : '\x1b' ∉ linesText (reportLines options report records (groups records)) := by
    intro hmem
    obtain ⟨line, hline, hmem⟩ := List.mem_flatMap.mp hmem
    exact (List.mem_append.mp hmem).elim (hlines line hline).2 (by decide)
  have hshown := hrecords ▸ styled_render options report
  have htext : linesText (reportLines options report records (groups records)) =
      ((reportLines options report records (groups records)).map String.toList).flatMap (· ++ ['\n']) := by
    rw [linesText, List.flatMap_map]
  rw [linesShown, hshown.withoutCodes hcodes, htext, splitAtNewlines_flatMap hends, List.dropLast_concat]

/-- The headings and the records are read back from the output, if nothing in it is a line end or a code. -/
theorem sections_render {report : Report} (hplain : ∀ r ∈ report.records options, r.IsPlain)
    (hgroups : IsGrouping (report.records options) (groups (report.records options))) :
    sections (linesShown (render options report)) =
      (groups (report.records options)).map fun group => (group.1, group.2.map (remarkUnder group.1)) := by
  have hwords : ∀ group ∈ groups (report.records options), ∀ r ∈ group.2, ' ' ∉ r.rule.toList := by
    intro group hgroup r hr
    refine (hplain r ?_).word
    rw [← hgroups.flatten]
    exact List.mem_flatMap.mpr ⟨group, hgroup, hr⟩
  rw [linesShown_render hplain hgroups, reportLines]
  split
  · next hempty =>
    have hsummary : [] ∉ [(summaryLine report []).toList] := by simp [summaryLine]
    rw [List.isEmpty_iff.mp hempty]
    exact sections_eq_nil hsummary
  · rw [List.nil_append, List.map_append]
    exact sections_fileLines hwords _

end TextFormat

end CSharpStyle
