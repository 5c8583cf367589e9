import CSharpStyle.Proofs.Cache.Agreement
import CSharpStyle.Proofs.Runs.Batch
import CSharpStyle.Proofs.Settings.Symbols

/-!
# Caches change no results

A cache that starts empty goes through runs of analyzers with the same symbols and the same reader of patterns, while
files and settings change in between. As long as no two texts or settings that it meets have the same digest, a run with
the cache reports what it would report without one.

* `CacheHistory.Explains`: the invariant. An entry holds what a run of the history finds in a content with the digest
  of the entry.
* `FileCache.Sound.after`, `FileCache.Sound.replay`: a run and a whole history keep it.
* `FileCache.Sound.lookup?`: so what is looked up agrees with what would be found.
* `CacheHistory.transparent`: runs with and without the cache have the same outcome.
-/

namespace CSharpStyle

/-- Which files are selected depends on the filter of an analyzer alone. -/
theorem Analyzer.selectFiles_eq {a a' : Analyzer} (h : a.filter = a'.filter) : a.selectFiles = a'.selectFiles := by
  funext files paths options
  rw [selectFiles, selectFiles, filterFor, filterFor, h]

/-! ### Histories -/

/-- A run with a cache. Each file has an interruption of its own, so that a run can be interrupted at any moment. -/
structure CachedRun (symbols : Symbols) (patterns : PatternReader) where
  settings : Settings
  analyzer : Analyzer
  made : Analyzer.ofSettings settings symbols patterns = .ok analyzer
  /-- The files during the run. -/
  files : FileSystem
  interrupted : Path → Interruption
  paths : List Path
  options : RunOptions
  now : Timestamp

/-- What happens to a cache. -/
inductive CacheEvent (symbols : Symbols) (patterns : PatternReader)
  | run (r : CachedRun symbols patterns)
  | cleanup (files : FileSystem)

abbrev CacheHistory (symbols : Symbols) (patterns : PatternReader) := List (CacheEvent symbols patterns)

namespace CachedRun

variable {symbols : Symbols} {patterns : PatternReader}

def selection (r : CachedRun symbols patterns) : Except Failure FileSelection :=
  r.analyzer.selectFiles r.files r.paths r.options

def batch (r : CachedRun symbols patterns) (data : CacheData) (files : List Path) : Batch Contribution :=
  .ofTasks (r.analyzer.contribution r.files data) (files.map fun file => ⟨file, r.interrupted file⟩)

/-- The report of the run and the cache behind it. -/
def outcome (r : CachedRun symbols patterns) (c : FileCache) : Except Failure (Report × FileCache) := do
  let selection ← r.selection
  let batch := r.batch c.data selection.files
  .ok (r.analyzer.reportOf selection.diagnostics ⟨batch.items.map (·.report), batch.isInterrupted⟩,
    batch.items.foldl (Contribution.record r.analyzer.fingerprint r.now) c)

theorem outcome_eq_runCached {r : CachedRun symbols patterns} {interrupted : Interruption}
    (h : r.interrupted = fun _ => interrupted) (c : FileCache) :
    r.outcome c = r.analyzer.runCached r.files interrupted r.paths r.options c r.now := by
  obtain ⟨settings, analyzer, made, files, own, paths, options, now⟩ := r
  subst h
  rfl

/-- The cache behind the run. A run that fails leaves it as it is. -/
def after (r : CachedRun symbols patterns) (c : FileCache) : FileCache := (r.outcome c).toOption.elim c (·.2)

/-- The run selects a file with the given content. -/
def Reads (r : CachedRun symbols patterns) (content : String) : Prop :=
  ∃ selection, r.selection = .ok selection ∧ ∃ file ∈ selection.files, r.files.readSource file = .ok content

/-- A run that selects a single file reads nothing but its content. -/
theorem Reads.eq_of_single {r : CachedRun symbols patterns} {content text : String} {file : Path}
    {diagnostics : List Diagnostic} (h : r.Reads content) (hselection : r.selection = .ok ⟨[file], diagnostics⟩)
    (htext : r.files.readSource file = .ok text) : content = text := by
  obtain ⟨selection, hselection', file', hfile, hcontent⟩ := h
  cases hselection.symm.trans hselection'
  cases List.mem_singleton.mp hfile
  exact Except.ok.inj (hcontent.symm.trans htext)

end CachedRun

namespace CacheHistory

variable {symbols : Symbols} {patterns : PatternReader}

/-- The cache behind the events, in order. -/
def replay (events : CacheHistory symbols patterns) (c : FileCache) : FileCache :=
  events.foldl
    (fun c event =>
      match event with
      | .run r => r.after c
      | .cleanup files => c.cleanup files)
    c

/-- Different contents that the runs read have different digests, and so have different streams of their settings. -/
structure Collisionless (events : CacheHistory symbols patterns) : Prop where
  contents {r r' : CachedRun symbols patterns} {content content' : String} (hr : .run r ∈ events)
    (hr' : .run r' ∈ events) (hreads : r.Reads content) (hreads' : r'.Reads content')
    (h : contentHash content = contentHash content') : content = content'
  settings {r r' : CachedRun symbols patterns} (hr : .run r ∈ events) (hr' : .run r' ∈ events)
    (h : r.settings.fingerprint = r'.settings.fingerprint) :
    Fingerprint.stream r.settings = Fingerprint.stream r'.settings

end CacheHistory

/-! ### The invariant -/

variable {symbols : Symbols} {patterns : PatternReader} {events : CacheHistory symbols patterns}

/-- An entry that holds what a run of the history finds in a content that it reads. -/
inductive CacheHistory.Explains (events : CacheHistory symbols patterns) : Path → CacheEntry → Prop
  | intro {r : CachedRun symbols patterns} {content : String} {p q : Path} (hr : .run r ∈ events)
    (hreads : r.Reads content) (hsame : q.same p) (now : Timestamp) :
    Explains events p ⟨contentHash content, r.analyzer.fingerprint, now, r.analyzer.files.report q content⟩

/-- A contribution of the run. What is new is what the run finds in a content that it reads. -/
inductive CachedRun.Explains (r : CachedRun symbols patterns) : Contribution → Prop
  | kept (report : FileReport) : Explains r (.kept report)
  | new {content : String} (hreads : r.Reads content) (file : Path) :
    Explains r (.new file (contentHash content) (r.analyzer.files.report file content))
  | unreadable (report : FileReport) : Explains r (.unreadable report)

/-- All entries are explained by the history. -/
def FileCache.Sound (events : CacheHistory symbols patterns) (c : FileCache) : Prop :=
  ∀ entry ∈ c.data.files, events.Explains entry.1 entry.2

theorem mem_insertByPath {α : Type} {p : Path} {value : α} {items : List (Path × α)} {item : Path × α}
    (h : item ∈ insertByPath p value items) : item ∈ items ∨ p.same item.1 ∧ item.2 = value := by
  induction items with
  | nil =>
    cases List.mem_singleton.mp h
    exact .inr ⟨p.same_self, rfl⟩
  | cons first items ih =>
    obtain ⟨q, old⟩ := first
    rw [insertByPath] at h
    split at h
    · rcases List.mem_cons.mp h with rfl | h
      · exact .inr ⟨p.same_self, rfl⟩
      · exact .inl h
    · rename_i horder
      rcases List.mem_cons.mp h with rfl | h
      · exact .inr ⟨Path.same_iff_order_eq.mpr horder, rfl⟩
      · exact .inl (List.mem_cons_of_mem _ h)
    · rcases List.mem_cons.mp h with rfl | h
      · exact .inl (List.mem_cons_self ..)
      · exact (ih h).imp_left (List.mem_cons_of_mem _)

namespace FileCache

variable {c : FileCache}

theorem sound_empty (path : Path) (now : Timestamp) : (empty path now).Sound events :=
  fun _ h => absurd h List.not_mem_nil

theorem Sound.cleanup (h : c.Sound events) (files : FileSystem) : (c.cleanup files).Sound events :=
  fun entry hentry => h entry (List.mem_filter.mp hentry).1

theorem Sound.record (h : c.Sound events) {r : CachedRun symbols patterns} (hr : .run r ∈ events) {k : Contribution}
    (hk : r.Explains k) : (k.record r.analyzer.fingerprint r.now c).Sound events := by
  cases hk with
  | kept report => exact h
  | unreadable report => exact h
  | new hreads file =>
    intro entry hentry
    rcases mem_insertByPath hentry with hold | ⟨hsame, hvalue⟩
    · exact h entry hold
    · rw [hvalue]
      exact .intro hr hreads hsame r.now

end FileCache

namespace CachedRun

variable {r : CachedRun symbols patterns} {data : CacheData}

/-- The findings in a file that are not taken from a cache. -/
def found (r : CachedRun symbols patterns) (file : Path) : FileReport := r.analyzer.found r.files file

/-- What a selected file contributes. -/
theorem explains_of_contribution {selection : FileSelection} (hselection : r.selection = .ok selection) {file : Path}
    (hfile : file ∈ selection.files) {interrupted : Interruption} {k : Contribution}
    (h : r.analyzer.contribution r.files data interrupted file = some k) : r.Explains k := by
  rw [Analyzer.contribution] at h
  cases hsource : r.files.readSource file with
  | error report =>
    rw [hsource] at h
    cases h
    exact .unreadable report
  | ok source =>
    rw [hsource] at h
    simp only at h
    cases hlookup : data.lookup? file (contentHash source) r.analyzer.fingerprint with
    | some report =>
      rw [hlookup] at h
      cases h
      exact .kept report
    | none =>
      rw [hlookup] at h
      obtain ⟨report, hreport, rfl⟩ := Option.map_eq_some_iff.mp h
      rw [Analyzer.report_of_analyzeSource hreport]
      exact .new ⟨selection, hselection, file, hfile, hsource⟩ file

end CachedRun

namespace FileCache

variable {c : FileCache}

/-- A run keeps the invariant, also when it fails or is interrupted. -/
theorem Sound.after (h : c.Sound events) {r : CachedRun symbols patterns} (hr : .run r ∈ events) :
    (r.after c).Sound events := by
  rw [CachedRun.after, CachedRun.outcome]
  cases hselection : r.selection with
  | error e => exact h
  | ok selection =>
    have hall : ∀ k ∈ (r.batch c.data selection.files).items, r.Explains k := by
      intro k hk
      rw [CachedRun.batch, Batch.items_ofTasks] at hk
      obtain ⟨t, ht, hrun⟩ := List.mem_filterMap.mp hk
      obtain ⟨file, hfile, rfl⟩ := List.mem_map.mp ht
      rw [Task.run] at hrun
      exact CachedRun.explains_of_contribution hselection hfile (Option.ite_none_left_eq_some.mp hrun).2
    have hfold : ∀ (items : List Contribution) {c : FileCache}, c.Sound events → (∀ k ∈ items, r.Explains k) →
        (items.foldl (Contribution.record r.analyzer.fingerprint r.now) c).Sound events := by
      intro items
      induction items with
      | nil => exact fun h _ => h
      | cons k items ih =>
        intro c h hall
        exact ih (h.record hr (hall k (List.mem_cons_self ..))) fun l hl => hall l (List.mem_cons_of_mem _ hl)
    exact hfold _ h hall

theorem Sound.replay (h : c.Sound events) {before : CacheHistory symbols patterns}
    (hbefore : ∀ event ∈ before, event ∈ events) :
    (before.replay c).Sound events := by
  induction before generalizing c with
  | nil => exact h
  | cons event before ih =>
    have hrest : ∀ e ∈ before, e ∈ events := fun e he => hbefore e (List.mem_cons_of_mem _ he)
    cases event with
    | run r => exact ih (h.after (hbefore _ (List.mem_cons_self ..))) hrest
    | cleanup files => exact ih (h.cleanup files) hrest

/-- What is looked up in the cache agrees with what would be found. -/
theorem Sound.lookup? (h : c.Sound events) (hcollisions : events.Collisionless) {r : CachedRun symbols patterns}
    (hr : .run r ∈ events) {content : String} (hreads : r.Reads content) {file : Path} {report : FileReport}
    (hlookup : c.data.lookup? file (contentHash content) r.analyzer.fingerprint = some report) :
    report.Agrees (r.analyzer.files.report file content) := by
  obtain ⟨e, hentry, rfl⟩ := Option.map_eq_some_iff.mp hlookup
  obtain ⟨hentry, hdigests⟩ := Option.filter_eq_some_iff.mp hentry
  obtain ⟨⟨q, e⟩, hfind, rfl⟩ := Option.map_eq_some_iff.mp hentry
  have hsame : q.same file := (List.find?_eq_some_iff_append.mp hfind).1
  obtain ⟨hcontent, hfingerprint⟩ := Bool.and_eq_true_iff.mp hdigests
  have hexplained : events.Explains q e := h _ (List.mem_of_find?_eq_some hfind)
  cases hexplained with
  | @intro r' content' p q' hr' hreads' hsame' now =>
    -- Equal digests make the run that left the entry one with the same content and the same rules.
    obtain rfl := hcollisions.contents hr' hr hreads' hreads (eq_of_beq hcontent)
    have hstream : Fingerprint.stream r'.settings = Fingerprint.stream r.settings := by
      refine hcollisions.settings hr' hr ?_
      rw [← Analyzer.fingerprint_eq r'.made, ← Analyzer.fingerprint_eq r.made]
      exact eq_of_beq hfingerprint
    have hfiles : r'.analyzer.files = r.analyzer.files := Analyzer.files_eq_of_stream_eq r'.made r.made hstream
    rw [hfiles]
    exact r.analyzer.files.report_agrees (Path.same_trans hsame' hsame) _

end FileCache

/-! ### Runs with and without the cache -/

namespace CachedRun

variable {r : CachedRun symbols patterns} {c : FileCache}

/-- A file that contributes to the run contributes what is found in it. -/
theorem report_agrees (h : c.Sound events) (hcollisions : events.Collisionless) (hr : .run r ∈ events)
    {selection : FileSelection} (hselection : r.selection = .ok selection) {file : Path}
    (hfile : file ∈ selection.files) {interrupted : Interruption} {k : Contribution}
    (hk : r.analyzer.contribution r.files c.data interrupted file = some k) : k.report.Agrees (r.found file) := by
  rw [Analyzer.contribution] at hk
  rw [found, Analyzer.found]
  cases hsource : r.files.readSource file with
  | error report =>
    rw [hsource] at hk
    cases hk
    exact .refl _
  | ok source =>
    have hreads : r.Reads source := ⟨selection, hselection, file, hfile, hsource⟩
    rw [hsource] at hk
    simp only at hk
    cases hlookup : c.data.lookup? file (contentHash source) r.analyzer.fingerprint with
    | some report =>
      rw [hlookup] at hk
      cases hk
      exact h.lookup? hcollisions hr hreads hlookup
    | none =>
      rw [hlookup] at hk
      obtain ⟨report, hreport, rfl⟩ := Option.map_eq_some_iff.mp hk
      rw [Contribution.report, Analyzer.report_of_analyzeSource hreport]
      exact .refl _

/-- When all files contribute, their contributions agree with what is found in them. -/
theorem batch_agrees (h : c.Sound events) (hcollisions : events.Collisionless) (hr : .run r ∈ events)
    {selection : FileSelection} (hselection : r.selection = .ok selection)
    (hall : (r.batch c.data selection.files).isInterrupted = false) :
    List.Forall₂ FileReport.Agrees ((r.batch c.data selection.files).items.map (·.report))
      (selection.files.map r.found) := by
  have hitems : List.Forall₂ (fun (k : Contribution) file => k.report.Agrees (r.found file))
      (r.batch c.data selection.files).items
      ((selection.files.map fun file => (⟨file, r.interrupted file⟩ : Task)).map (·.file)) := by
    refine Batch.forall₂_ofTasks hall fun t ht k hk => ?_
    obtain ⟨file, hfile, rfl⟩ := List.mem_map.mp ht
    rw [Task.run] at hk
    exact report_agrees h hcollisions hr hselection hfile (Option.ite_none_left_eq_some.mp hk).2
  have hfiles :
      (selection.files.map fun file => (⟨file, r.interrupted file⟩ : Task)).map (·.file) = selection.files := by
    rw [List.map_map]
    exact List.map_id _
  rw [hfiles] at hitems
  rwa [List.forall₂_map_left_iff, List.forall₂_map_right_iff]

/-- A run that is never interrupted is complete. -/
theorem isInterrupted_batch (hnever : ∀ file, r.interrupted file = .never) (data : CacheData) (files : List Path) :
    (r.batch data files).isInterrupted = false := by
  rw [batch, Batch.isInterrupted_ofTasks, List.any_eq_false]
  intro t ht
  obtain ⟨file, -, rfl⟩ := List.mem_map.mp ht
  rw [Task.run, hnever, if_neg (show ¬Interruption.never 0 from Bool.false_ne_true), Analyzer.contribution]
  cases r.files.readSource file with
  | error report => simp
  | ok source =>
    simp only
    cases data.lookup? file (contentHash source) r.analyzer.fingerprint with
    | some report => simp
    | none => simp [Analyzer.analyzeSource, FileAnalyzer.analyze, Interruption.never]

/-- What the run would report without a cache and without an interruption. -/
def plain (r : CachedRun symbols patterns) : Except Failure Report := r.analyzer.run r.files .never r.paths r.options

theorem plain_eq (r : CachedRun symbols patterns) :
    r.plain = r.selection.map fun selection =>
      r.analyzer.reportOf selection.diagnostics ⟨selection.files.map r.found, false⟩ := by
  rw [plain, Analyzer.run, selection]
  cases r.analyzer.selectFiles r.files r.paths r.options with
  | error e => rfl
  | ok selection =>
    have hrun : ∀ t ∈ Analyzer.tasks .never selection.files,
        t.run (r.analyzer.analyzeFile r.files) = some (r.found t.file) := by
      intro t ht
      obtain ⟨file, -, rfl⟩ := List.mem_map.mp ht
      exact r.analyzer.analyzeFile_never r.files file
    have hbatch : Batch.ofTasks (r.analyzer.analyzeFile r.files) (Analyzer.tasks .never selection.files) =
        ⟨selection.files.map r.found, false⟩ := by
      rw [Batch.ofTasks_eq hrun, Analyzer.tasks, List.map_map]
      rfl
    exact congrArg (fun batch => Except.ok (r.analyzer.reportOf selection.diagnostics batch)) hbatch

end CachedRun

theorem Analyzer.reportOf_agrees (a : Analyzer) (diagnostics : List Diagnostic) {reports reports' : List FileReport}
    (h : List.Forall₂ FileReport.Agrees reports reports') (isInterrupted : Bool) :
    (a.reportOf diagnostics ⟨reports, isInterrupted⟩).Agrees (a.reportOf diagnostics ⟨reports', isInterrupted⟩) := by
  have hempty := Report.Agrees.refl ((a.settings.diagnostics ++ diagnostics).foldl Report.addDiagnostic {})
  have hfilled := hempty.addFiles h
  exact Report.Agrees.sorted { hfilled with files := h.length_eq, isCancelled := rfl, fingerprint := rfl }

namespace CacheHistory

/-- At any moment of a history, a run fails with the cache if and only if it fails without, and then leaves the cache
as it is. If it is not interrupted, it reports the same with the cache as without, up to the way in which the paths of
files are written. -/
theorem transparent (hcollisions : events.Collisionless) (path : Path) (start : Timestamp)
    {before behind : CacheHistory symbols patterns} {r : CachedRun symbols patterns}
    (hsplit : events = before ++ .run r :: behind) :
    let c := before.replay (.empty path start)
    (∀ failure, r.outcome c = .error failure ↔ r.plain = .error failure) ∧
    (∀ failure, r.outcome c = .error failure → r.after c = c) ∧
    ((∀ file, r.interrupted file = .never) → ∀ report c', r.outcome c = .ok (report, c') →
      ∃ plain, r.plain = .ok plain ∧ report.Agrees plain ∧
        ∀ threshold, report.exitCode threshold = plain.exitCode threshold) := by
  intro c
  have hr : .run r ∈ events := hsplit ▸ List.mem_append_right _ (List.mem_cons_self ..)
  have hsound : c.Sound events :=
    (FileCache.sound_empty path start).replay fun event hevent => hsplit ▸ List.mem_append_left _ hevent
  rw [CachedRun.plain_eq]
  cases hselection : r.selection with
  | error e =>
    have houtcome : r.outcome c = .error e := by
      rw [CachedRun.outcome, hselection]
      rfl
    rw [CachedRun.after, houtcome]
    refine ⟨fun failure => ⟨?_, ?_⟩, fun _ _ => rfl, fun _ report c' h => ?_⟩
    · rintro ⟨⟩
      rfl
    · rintro ⟨⟩
      rfl
    · cases h
  | ok selection =>
    have houtcome : r.outcome c =
        .ok (r.analyzer.reportOf selection.diagnostics
            ⟨(r.batch c.data selection.files).items.map (·.report), (r.batch c.data selection.files).isInterrupted⟩,
          (r.batch c.data selection.files).items.foldl (Contribution.record r.analyzer.fingerprint r.now) c) := by
      rw [CachedRun.outcome, hselection]
      rfl
    rw [houtcome]
    refine ⟨fun failure => ⟨(by rintro ⟨⟩), (by rintro ⟨⟩)⟩, (by rintro _ ⟨⟩), fun hnever report c' h => ?_⟩
    have hall := CachedRun.isInterrupted_batch hnever c.data selection.files
    have hagrees := r.analyzer.reportOf_agrees selection.diagnostics
      (CachedRun.batch_agrees hsound hcollisions hr hselection hall) false
    cases h
    rw [hall]
    exact ⟨_, rfl, hagrees, hagrees.exitCode_eq⟩

/-- A file is analyzed, edited, analyzed with other settings, cleaned up and analyzed with the first settings again. -/
theorem transparent_edited_file :
    let files (text : String) : FileSystem := ⟨[], [(["A.cs"], .file (Utf8.encode text))]⟩
    let s : Settings := { paths := ⟨[], none⟩ }
    let s' : Settings := { paths := ⟨[], none⟩, rules := [("PascalCaseType", { isEnabled := false })] }
    ∃ r₁ r₂ r₃ : CachedRun .unknown .regex,
      (r₁.settings = s ∧ r₁.files = files "class a { }") ∧ (r₂.settings = s' ∧ r₂.files = files "class b { }") ∧
      (r₃.settings = s ∧ r₃.files = files "class b { }" ∧ ∀ file, r₃.interrupted file = .never) ∧
      let events := [.run r₁, .run r₂, .cleanup (files "class b { }"), .run r₃]
      Collisionless events ∧
      let c := replay (events.take 3) (.empty ⟨"cache.json"⟩ default)
      (∀ failure, r₃.outcome c = .error failure ↔ r₃.plain = .error failure) ∧
      (∀ failure, r₃.outcome c = .error failure → r₃.after c = c) ∧
      ((∀ file, r₃.interrupted file = .never) → ∀ report c', r₃.outcome c = .ok (report, c') →
        ∃ plain, r₃.plain = .ok plain ∧ report.Agrees plain ∧
          ∀ threshold, report.exitCode threshold = plain.exitCode threshold) := by
  intro files s s'
  have hvalid : s.validate = .ok () := Except.eq_ok_of_isOk (by decide +kernel)
  have hvalid' : s'.validate = .ok () := Except.eq_ok_of_isOk (by decide +kernel)
  obtain ⟨a, ha⟩ := Analyzer.exists_ofSettings hvalid (by decide) .unknown
  obtain ⟨a', ha'⟩ := Analyzer.exists_ofSettings hvalid' (by decide) .unknown
  have hselect {a : Analyzer} (hfilter : a.filter = ⟨[], none⟩) {text : String}
      (h : text = "class a { }" ∨ text = "class b { }") :
      a.selectFiles (files text) [⟨"A.cs"⟩] {} = .ok ⟨[⟨"A.cs"⟩], []⟩ := by
    rw [Analyzer.selectFiles_eq (show a.filter = (⟨s, ⟨[], none⟩, ⟨[], .unknown⟩⟩ : Analyzer).filter from hfilter)]
    rcases h with rfl | rfl <;> exact Except.eq_ok_of_toOption (by decide +kernel)
  have hread {text : String} (h : text = "class a { }" ∨ text = "class b { }") :
      (files text).readSource ⟨"A.cs"⟩ = .ok text := by
    rcases h with rfl | rfl <;> exact Except.eq_ok_of_toOption (by decide +kernel)
  have hfilter : a.filter = ⟨[], none⟩ := (Except.ok.inj (Analyzer.ofSettings_eq_ok ha).2.1).symm
  have hfilter' : a'.filter = ⟨[], none⟩ := (Except.ok.inj (Analyzer.ofSettings_eq_ok ha').2.1).symm
  let r₁ : CachedRun .unknown .regex := ⟨s, a, ha, files "class a { }", fun _ => .never, [⟨"A.cs"⟩], {}, default⟩
  let r₂ : CachedRun .unknown .regex := ⟨s', a', ha', files "class b { }", fun _ => .never, [⟨"A.cs"⟩], {}, default⟩
  let r₃ : CachedRun .unknown .regex := ⟨s, a, ha, files "class b { }", fun _ => .never, [⟨"A.cs"⟩], {}, default⟩
  let events : CacheHistory .unknown .regex := [.run r₁, .run r₂, .cleanup (files "class b { }"), .run r₃]
  have hmem {r : CachedRun .unknown .regex} (hr : .run r ∈ events) : r = r₁ ∨ r = r₂ ∨ r = r₃ := by
    simpa only [events, List.mem_cons, CacheEvent.run.injEq, reduceCtorEq, List.not_mem_nil, or_false, false_or]
      using hr
  have hcollisions : events.Collisionless := by
    refine ⟨fun {r r' content content'} hr hr' hcontent hcontent' h => ?_, fun {r r'} hr hr' h => ?_⟩
    · have hdigests : contentHash "class a { }" ≠ contentHash "class b { }" := by decide +kernel
      have htext {r : CachedRun .unknown .regex} {content : String} (hr : r = r₁ ∨ r = r₂ ∨ r = r₃)
          (hcontent : r.Reads content) : content = "class a { }" ∨ content = "class b { }" := by
        rcases hr with rfl | rfl | rfl
        · exact .inl (hcontent.eq_of_single (hselect hfilter (.inl rfl)) (hread (.inl rfl)))
        · exact .inr (hcontent.eq_of_single (hselect hfilter' (.inr rfl)) (hread (.inr rfl)))
        · exact .inr (hcontent.eq_of_single (hselect hfilter (.inr rfl)) (hread (.inr rfl)))
      rcases htext (hmem hr) hcontent with rfl | rfl <;> rcases htext (hmem hr') hcontent' with rfl | rfl
      · rfl
      · exact absurd h hdigests
      · exact absurd h.symm hdigests
      · rfl
    · have hfingerprints : s.fingerprint ≠ s'.fingerprint := by decide +kernel
      have hsettings {r : CachedRun .unknown .regex} (hr : r = r₁ ∨ r = r₂ ∨ r = r₃) :
          r.settings = s ∨ r.settings = s' := by
        rcases hr with rfl | rfl | rfl
        · exact .inl rfl
        · exact .inr rfl
        · exact .inl rfl
      rcases hsettings (hmem hr) with hs | hs <;> rcases hsettings (hmem hr') with hs' | hs' <;> rw [hs, hs'] at h ⊢
      · exact absurd h hfingerprints
      · exact absurd h.symm hfingerprints
  exact ⟨r₁, r₂, r₃, ⟨rfl, rfl⟩, ⟨rfl, rfl⟩, ⟨rfl, rfl, fun _ => rfl⟩, hcollisions, transparent hcollisions _ _ rfl⟩

end CacheHistory

end CSharpStyle
