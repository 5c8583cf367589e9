import CSharpStyle.Format.Fields
import CSharpStyle.Proofs.Format.PrintedJson
import CSharpStyle.Proofs.Rendering.TextLines

/-!
# All formats present the same report

Every format goes through one sorted list of records, and the headings of the text for readers do not rearrange it.
What is presented depends on the findings of a report, and on the order in which they were added only as far as
records are not told apart. What an output lists is said by what is read back from it.

* `Record.instTransCmpOrder`: the order of records is transitive.
* `Report.records_perm`: records that are told apart have one order, whatever the order of the findings.
* `JsonFormat.remark?_recordValue`, `SarifFormat.remarks?_document`, `WorkflowCommand.ofLine?_render`: the records are
  read back from the outputs for programs.
* `TextFormat.lists_render`: the headings and the records in the output for readers.
* `Report.render_presents`: what the outputs of a report have in common.
-/

namespace CSharpStyle

open JsonReader (Fits)
open WorkflowCommand (Remark)

/-! ### The order of records -/

/-- By file, line, column, rule and message, one behind the other. -/
def Record.lexicographic : Record → Record → Ordering :=
  compareLex (fun r s => r.file.order s.file) (compareLex (compareOn fun r => r.line.getD 0)
    (compareLex (compareOn fun r => r.column.getD 0) (compareLex (compareOn rule) (compareOn message))))

theorem Record.order_eq_lexicographic : Record.order = Record.lexicographic := rfl

instance Record.instTransCmpOrder : Std.TransCmp Record.order := by
  have hfile : Std.TransCmp fun r s : Record => r.file.order s.file := transCmp_on Path.order file
  rw [Record.order_eq_lexicographic]
  unfold lexicographic
  infer_instance

theorem Record.file_isLE {r s : Record} (h : (r.order s).isLE = true) : (r.file.order s.file).isLE = true :=
  Ordering.isLE_left_of_isLE_then h

section

variable (report : Report) (options : RenderOptions)

/-- The records of a report are its findings, except for violations that are not severe enough. -/
theorem Report.records_perm_findings :
    (report.records options).Perm
      ((report.violations.filter fun v => options.minSeverity.all v.severity.reaches).map Record.ofViolation ++
        report.diagnostics.map Record.ofDiagnostic) :=
  perm_sortBy ..

/-- Sorting does not change whether all records are told apart. -/
theorem Report.pairwise_records_ne_iff :
    ((report.records options).Pairwise fun r s => r.order s ≠ .eq) ↔
      ((report.violations.filter fun v => options.minSeverity.all v.severity.reaches).map Record.ofViolation ++
        report.diagnostics.map Record.ofDiagnostic).Pairwise fun r s => r.order s ≠ .eq :=
  (report.records_perm_findings options).pairwise_iff fun hne heq => hne (Std.OrientedCmp.eq_comm.mp heq)

theorem Report.pairwise_records :
    (report.records options).Pairwise fun r s => (r.order s).isLE = true :=
  pairwise_sortBy _

/-- Records that are told apart come in one order, whatever the order of the findings. -/
theorem Report.records_perm {report report' : Report} (options : RenderOptions)
    (hviolations : report'.violations.Perm report.violations)
    (hdiagnostics : report'.diagnostics.Perm report.diagnostics)
    (h : (report.records options).Pairwise fun r s => r.order s ≠ .eq) :
    report'.records options = report.records options := by
  exact sortBy_perm ((report.pairwise_records_ne_iff options).mp h)
    (((hviolations.filter _).map _).append (hdiagnostics.map _))

/-! ### JSON -/

namespace JsonValue

/-- The value that the keys lead to, one object inside the other. -/
def at? : List String → JsonValue → Option JsonValue
  | [], value => some value
  | key :: keys, object entries => (entries.lookup key).bind (at? keys)
  | _, _ => none

def natural? : JsonValue → Option Nat
  | natural n => some n
  | _ => none

/-- If each of the values is read, the list of them is. -/
theorem list?_array_map {α β : Type} {read : JsonValue → Option β} {value : α → JsonValue} {f : α → β}
    (h : ∀ a, read (value a) = some (f a)) (items : List α) :
    list? read (array (items.map value)) = some (items.map f) := by
  rw [list?]
  induction items with
  | nil => rfl
  | cons a items ih =>
    rw [List.map_cons, List.mapM_cons, h, ih]
    rfl

end JsonValue

namespace JsonFormat

/-- What an object of the output says of a record. -/
def remark? (value : JsonValue) : Option Remark := do
  return {
    severity := ← Severity.ofWord? "info" (← (← value.at? ["severity"]).string?)
    file := ⟨← (← value.at? ["file"]).string?⟩
    line := ← (← value.at? ["line"]).optional? JsonValue.natural?
    column := ← (← value.at? ["column"]).optional? JsonValue.natural?
    rule := ← (← value.at? ["rule"]).string?
    message := ← (← value.at? ["message"]).string? }

theorem remark?_recordValue (r : Record) : remark? (recordValue r) = some (.ofRecord r) := by
  have hseverity : Severity.ofWord? "info" r.severity.text = some r.severity := by cases r.severity <;> decide
  cases hline : r.line <;> cases hcolumn : r.column <;>
    simp [remark?, recordValue, JsonValue.at?, List.lookup_cons, JsonValue.string?, JsonValue.optional?,
      JsonValue.natural?, JsonValue.ofOption, hline, hcolumn, hseverity, Remark.ofRecord]

theorem fits_recordValue (depth : Nat) (r : Record) : Fits (depth + 1) (recordValue r) := by
  simp [recordValue]

theorem parse?_render :
    JsonValue.parse? (render options report) = some (.array ((report.records options).map recordValue)) :=
  JsonValue.parse?_print_append (by simp [fits_recordValue]) (List.forall_mem_singleton.mpr rfl)

end JsonFormat

namespace SarifFormat

/-- What a result says of a record. -/
def remark? (value : JsonValue) : Option Remark := do
  let [location] ← (← value.at? ["locations"]).list? some | none
  let place ← location.at? ["physicalLocation"]
  return {
    severity := ← Severity.ofWord? "note" (← (← value.at? ["level"]).string?)
    file := ⟨← (← place.at? ["artifactLocation", "uri"]).string?⟩
    line := some (← (← place.at? ["region", "startLine"]).natural?)
    column := some (← (← place.at? ["region", "startColumn"]).natural?)
    rule := ← (← value.at? ["ruleId"]).string?
    message := ← (← value.at? ["message", "text"]).string? }

/-- What the results of a document say. -/
def remarks? (document : JsonValue) : Option (List Remark) := do
  let [run] ← (← document.at? ["runs"]).list? some | none
  (← run.at? ["results"]).list? remark?

/-- What a result is to say of a record: a file without backslashes, and the beginning of the file or line where no
line or column is known. -/
def remarkOf (r : Record) : Remark :=
  { severity := r.severity, file := ⟨String.ofList (r.file.text.toList.map fun c => if c = '\\' then '/' else c)⟩
    line := some (r.line.getD 1), column := some (r.column.getD 1), rule := r.rule, message := r.message }

theorem remark?_resultValue (r : Record) : remark? (resultValue r) = some (remarkOf r) := by
  have hseverity : Severity.ofWord? "note" (level r.severity) = some r.severity := by cases r.severity <;> decide
  cases hsuggestion : r.suggestion <;>
    simp [remark?, resultValue, fixes, location, textObject, reference, JsonValue.at?, List.lookup_cons,
      JsonValue.string?, JsonValue.list?, JsonValue.natural?, hsuggestion, hseverity, remarkOf]

theorem remarks?_document (records : List Record) : remarks? (document records) = some (records.map remarkOf) := by
  have hresults := JsonValue.list?_array_map remark?_resultValue records
  have hruns (run : JsonValue) : JsonValue.list? some (.array [run]) = some [run] := rfl
  simp [remarks?, document, JsonValue.at?, List.lookup_cons, hruns, hresults]

theorem fits_resultValue (depth : Nat) (r : Record) : Fits (depth + 5) (resultValue r) := by
  cases hsuggestion : r.suggestion <;> simp [resultValue, fixes, hsuggestion, location, textObject]

theorem parse?_render :
    JsonValue.parse? (render options report) = some (document (report.records options)) :=
  JsonValue.parse?_print_append (by simp [document, tool, fits_resultValue]) (List.forall_mem_singleton.mpr rfl)

end SarifFormat

/-! ### Workflow commands -/

theorem WorkflowCommand.ofLine?_render :
    (linesOf (render options report).toList).map Remark.ofLine? =
      (report.records options).map fun r => some (.ofRecord r) := by
  have hends : ∀ line ∈ (report.records options).map lineOf, ∀ c ∈ ['\n', '\r'], c ∉ line :=
    List.forall_mem_map.mpr fun r _ => notMem_lineOf r
  rw [render, toList_join_command, linesOf_flatMap hends, List.map_map]
  exact List.map_congr_left fun r _ => Remark.ofLine?_lineOf r

end

/-! ### Outputs -/

/-- The text for readers lists `records`, with a heading for each of `groups`. -/
structure TextFormat.Lists (options : RenderOptions) (report : Report) (records : List Record)
    (groups : List (Path × List Record)) (output : String) : Prop where
  grouping : IsGrouping records groups
  /-- Up to styles these are the lines of the output, whatever the records say. -/
  lines : Styled options.useColors
    (linesText ((if records.isEmpty then ["No style violations found"] else []) ++
      (groups.flatMap fun (file, own) => file.text :: (own.flatMap (recordLines options) ++ [""])) ++
      [summaryLine report records])) output.toList
  counts : ∃ counts : List Nat, counts.sum = records.length ∧
    numbersIn (summaryLine report records).toList = counts ++ [report.files]
  /-- The headings and the records are read off the lines that a reader sees. -/
  read : (∀ r ∈ records, r.IsPlain) →
    sections (linesShown output) = groups.map fun (file, own) => (file, own.map (remarkUnder file))

theorem TextFormat.lists_render (options : RenderOptions) (report : Report) :
    Lists options report (report.records options) (groups (report.records options)) (render options report) := by
  have hgroups : IsGrouping (report.records options) (groups (report.records options)) :=
    groups_isGrouping ((report.pairwise_records options).imp Record.file_isLE)
  exact ⟨hgroups, styled_render options report, numbersIn_summaryLine report _,
    fun hplain => sections_render hplain hgroups⟩

/-- The outputs of a report list `records` in order, which are its findings as far as they are severe enough. -/
structure Report.Presents (report : Report) (options : RenderOptions) (records : List Record) : Prop where
  findings : records.Perm
    ((report.violations.filter fun v => decide (∀ least ∈ options.minSeverity, least.rank ≤ v.severity.rank)).map
      (fun v => ⟨v.file, some v.line, some v.column, v.rule, v.severity, v.message, v.context, v.fix, false⟩) ++
      report.diagnostics.map fun d =>
        ⟨d.file, d.line, d.column, d.kind.name, d.severity, d.message, none, none, true⟩)
  ordered : records.Pairwise fun r s => (r.lexicographic s).isLE = true
  text : ∃ groups, TextFormat.Lists options report records groups (report.render .text options)
  json : ∃ document, JsonValue.parse? (report.render .json options) = some document ∧
    document.list? JsonFormat.remark? = some (records.map .ofRecord)
  sarif : ∃ document, JsonValue.parse? (report.render .sarif options) = some document ∧
    SarifFormat.remarks? document = some (records.map SarifFormat.remarkOf)
  github : (linesOf (report.render .github options).toList).map Remark.ofLine? =
    records.map fun r => some (.ofRecord r)

/-- All formats list the same records. If these are all told apart, no output changes when the findings of the report
come in another order. -/
theorem Report.render_presents (report : Report) (options : RenderOptions) :
    report.Presents options (report.records options) ∧
      ∀ report' : Report, report'.violations.Perm report.violations →
        report'.diagnostics.Perm report.diagnostics → report'.files = report.files →
        report'.isCancelled = report.isCancelled →
        ((report.records options).Pairwise fun r s => r.lexicographic s ≠ .eq) →
        ∀ format, report'.render format options = report.render format options := by
  constructor
  · have hleast : (fun v : Violation => decide (∀ least ∈ options.minSeverity, least.rank ≤ v.severity.rank)) =
        fun v => options.minSeverity.all v.severity.reaches := by
      funext v
      cases options.minSeverity <;> simp [Severity.reaches]
    constructor
    case findings =>
      rw [hleast]
      exact report.records_perm_findings options
    case ordered => exact report.pairwise_records options
    case text => exact ⟨_, TextFormat.lists_render options report⟩
    case json =>
      exact ⟨_, JsonFormat.parse?_render report options, JsonValue.list?_array_map JsonFormat.remark?_recordValue _⟩
    case sarif => exact ⟨_, SarifFormat.parse?_render report options, SarifFormat.remarks?_document _⟩
    case github => exact WorkflowCommand.ofLine?_render report options
  · intro report' hviolations hdiagnostics hfiles hcancelled hdistinct format
    have hrecords : report'.records options = report.records options :=
      Report.records_perm options hviolations hdiagnostics hdistinct
    cases format with
    | text => simp only [render, TextFormat.render, TextFormat.summary, hrecords, hfiles, hcancelled]
    | json => simp only [render, JsonFormat.render, hrecords]
    | sarif => simp only [render, SarifFormat.render, hrecords]
    | github => simp only [render, WorkflowCommand.render, hrecords]

/-- Two violations at one place of a file that is written in two ways, in either order, and a file that is not read. -/
theorem Report.render_reordered :
    let first : Violation := ⟨"ClassName", .error, ⟨"a//B.cs"⟩, 3, 7, "Class", none, none⟩
    let second : Violation := ⟨"FieldName", .info, ⟨"a/B.cs"⟩, 3, 7, "Field", none, none⟩
    let unread : Diagnostic := ⟨.io, ⟨"C.cs"⟩, none, none, "Unreadable"⟩
    let report : Report := ⟨[first, second], [unread], ⟨1, 0, 1⟩, 1, false, none⟩
    (∀ format, Report.render ⟨[second, first], [unread], ⟨1, 0, 1⟩, 1, false, none⟩ format {} =
      report.render format {}) ∧
    ∃ groups, TextFormat.IsGrouping (report.records {}) groups ∧
      TextFormat.sections (TextFormat.linesShown (report.render .text {})) =
        groups.map fun (file, own) => (file, own.map (TextFormat.remarkUnder file)) := by
  intro first second unread report
  have hplain : ∀ r ∈ report.records {}, r.IsPlain := by
    intro r hr
    replace hr : r ∈ [.ofViolation first, .ofViolation second, .ofDiagnostic unread] :=
      (report.records_perm_findings {}).mem_iff.mp hr
    simp only [List.mem_cons, List.not_mem_nil, or_false] at hr
    rcases hr with rfl | rfl | rfl <;> constructor <;> decide
  obtain ⟨hpresents, hreordered⟩ := Report.render_presents report {}
  obtain ⟨groups, hlists⟩ := hpresents.text
  refine ⟨?_, groups, hlists.grouping, hlists.read hplain⟩
  refine hreordered ⟨[second, first], [unread], ⟨1, 0, 1⟩, 1, false, none⟩ (by decide) (by decide) rfl rfl ?_
  rw [← Record.order_eq_lexicographic, Report.pairwise_records_ne_iff]
  decide +kernel

end CSharpStyle
