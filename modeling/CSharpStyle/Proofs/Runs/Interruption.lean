import CSharpStyle.Proofs.Cache.Transparency
import CSharpStyle.Proofs.Runs.Division

/-!
# Interrupted runs

A run can be interrupted at any moment: before a file is read, and between the stages of its analysis. The answers to
these questions are arbitrary here, one sequence for each file, so that a flag that is raised once and read by several
workers is a special case. A file then contributes nothing or all that is found in it.

* `Report.AllOrNothing`: a report on the files that contributed, which is marked if there are others.
* `FileCache.Recorded`: a cache that has counted and kept what some files contributed.
* `Analyzer.interrupted_run`: runs end with such a report and such a cache, however they are divided and interrupted.
-/

namespace CSharpStyle

/-! ### Reports of interrupted runs -/

variable {α : Type}

/-- A task contributes nothing or all that there is for its file, and all if it is not interrupted. The report collects
what was contributed, and is marked if and only if a task contributed nothing. -/
structure Report.AllOrNothing (r : Report) (noted : List Diagnostic) (work : Interruption → Path → Option α)
    (whole : Path → α) (found : α → FileReport) (tasks : List Task) : Prop where
  complete (t : Task) : t.run work = none ∨ t.run work = some (whole t.file)
  uninterrupted (p : Path) : Task.run work ⟨p, .never⟩ = some (whole p)
  collects : r.Collects noted (fun p => found (whole p)) ((tasks.filter (·.contributes work)).map (·.file))
  isCancelled : r.isCancelled = true ↔ ∃ t ∈ tasks, t.run work = none

theorem Report.allOrNothing_reportOf (a : Analyzer) (noted : List Diagnostic)
    {work : Interruption → Path → Option α} {whole : Path → α}
    (hwork : ∀ interrupted file item, work interrupted file = some item → item = whole file)
    (hnever : ∀ file, work .never file = some (whole file)) (found : α → FileReport) (tasks : List Task) :
    (a.reportOf noted ⟨(Batch.ofTasks work tasks).items.map found, (Batch.ofTasks work tasks).isInterrupted⟩).AllOrNothing
      (a.settings.diagnostics ++ noted) work whole found tasks where
  complete t := by
    cases h : t.run work with
    | none => exact .inl rfl
    | some item =>
      rw [Task.run] at h
      rw [hwork _ _ _ (Option.ite_none_left_eq_some.mp h).2]
      exact .inr rfl
  uninterrupted p := hnever p
  collects := by
    refine collects_reportOf a noted ?_
    rw [Batch.items_eq_of_whole hwork, List.map_map, List.map_map]
    rfl
  isCancelled := by
    have hmark : (Batch.ofTasks work tasks).isInterrupted = true ↔ ∃ t ∈ tasks, t.run work = none := by
      simp only [Batch.isInterrupted_ofTasks, List.any_eq_true, Option.isNone_iff_eq_none]
    exact hmark

/-! ### Contributions -/

namespace Contribution

def isKept : Contribution → Bool
  | kept _ => true
  | _ => false

def isNew : Contribution → Bool
  | new .. => true
  | _ => false

end Contribution

namespace Analyzer

variable {a : Analyzer} {fs : FileSystem} {data : CacheData} {file : Path}

/-- What a file contributes to a run with a cache that is not interrupted. -/
def wholeContribution (a : Analyzer) (fs : FileSystem) (data : CacheData) (file : Path) : Contribution :=
  match fs.readSource file with
  | .error report => .unreadable report
  | .ok source =>
    match data.lookup? file (contentHash source) a.fingerprint with
    | some report => .kept report
    | none => .new file (contentHash source) (a.files.report file source)

theorem contribution_never (a : Analyzer) (fs : FileSystem) (data : CacheData) (file : Path) :
    a.contribution fs data .never file = some (a.wholeContribution fs data file) := by
  rw [contribution, wholeContribution]
  cases fs.readSource file with
  | error report => rfl
  | ok source =>
    simp only
    cases data.lookup? file (contentHash source) a.fingerprint <;> rfl

theorem eq_whole_of_contribution (a : Analyzer) (fs : FileSystem) (data : CacheData) (interrupted : Interruption)
    (file : Path) (k : Contribution) (h : a.contribution fs data interrupted file = some k) :
    k = a.wholeContribution fs data file := by
  rw [contribution] at h
  rw [wholeContribution]
  cases hsource : fs.readSource file with
  | error report =>
    rw [hsource] at h
    exact (Option.some.inj h).symm
  | ok source =>
    rw [hsource] at h
    simp only at h ⊢
    cases hlookup : data.lookup? file (contentHash source) a.fingerprint with
    | some report =>
      rw [hlookup] at h
      exact (Option.some.inj h).symm
    | none =>
      rw [hlookup] at h
      obtain ⟨report, hreport, rfl⟩ := Option.map_eq_some_iff.mp h
      rw [report_of_analyzeSource hreport]

/-- A readable file is looked up with or without success, and an unreadable one is not. -/
theorem isOk_readSource_eq (a : Analyzer) (fs : FileSystem) (data : CacheData) (file : Path) :
    (fs.readSource file).isOk =
      ((a.wholeContribution fs data file).isKept || (a.wholeContribution fs data file).isNew) := by
  rw [wholeContribution]
  cases fs.readSource file with
  | error report => rfl
  | ok source =>
    simp only
    cases data.lookup? file (contentHash source) a.fingerprint <;> rfl

theorem exists_source_of_isNew (h : (a.wholeContribution fs data file).isNew) :
    ∃ source, fs.readSource file = .ok source ∧
      a.wholeContribution fs data file = .new file (contentHash source) (a.files.report file source) := by
  rw [wholeContribution] at h ⊢
  cases hsource : fs.readSource file with
  | error report =>
    rw [hsource] at h
    cases h
  | ok source =>
    rw [hsource] at h
    simp only at h ⊢
    cases hlookup : data.lookup? file (contentHash source) a.fingerprint with
    | some report =>
      rw [hlookup] at h
      cases h
    | none => exact ⟨source, rfl, rfl⟩

end Analyzer

/-! ### What contributions leave in a cache -/

theorem exists_same_insertByPath {β : Type} (p q : Path) (value : β) (items : List (Path × β)) :
    (∃ e ∈ insertByPath p value items, e.1.same q) ↔ (∃ e ∈ items, e.1.same q) ∨ p.same q := by
  induction items with
  | nil => simp [insertByPath]
  | cons first items ih =>
    obtain ⟨r, old⟩ := first
    rw [insertByPath]
    split
    · simp only [List.mem_cons, exists_eq_or_imp]
      exact or_comm
    · rename_i horder
      have hsame : p.same q ↔ r.same q := by
        have hpr := Path.same_iff.mp (Path.same_iff_order_eq.mpr horder)
        rw [Path.same_iff, Path.same_iff, hpr]
      simp only [List.mem_cons, exists_eq_or_imp, hsame]
      exact ⟨.inl, fun h => h.elim id .inl⟩
    · simp only [List.mem_cons, exists_eq_or_imp, ih]
      exact (or_assoc).symm

/-- The cache behind the contributions of some files to a run: every readable file was counted once, as a hit or a
miss, and the new reports, and only they, were entered. -/
structure FileCache.Recorded (a : Analyzer) (fs : FileSystem) (now : Timestamp) (data : CacheData)
    (before after : FileCache) (files : List Path) : Prop where
  hits : after.data.hits = before.data.hits + files.countP fun p => (a.wholeContribution fs data p).isKept
  misses : after.data.misses = before.data.misses + files.countP fun p => (a.wholeContribution fs data p).isNew
  counted : after.data.hits + after.data.misses =
    before.data.hits + before.data.misses + files.countP fun p => (fs.readSource p).isOk
  entries : ∀ e ∈ after.data.files, e ∈ before.data.files ∨
    ∃ p ∈ files, p.same e.1 ∧ ∃ source, fs.readSource p = .ok source ∧
      e.2 = ⟨contentHash source, a.fingerprint, now, a.files.report p source⟩
  paths : ∀ q, (∃ e ∈ after.data.files, e.1.same q) ↔
    (∃ e ∈ before.data.files, e.1.same q) ∨ ∃ p ∈ files, p.same q ∧ (a.wholeContribution fs data p).isNew

namespace FileCache.Recorded

variable {a : Analyzer} {fs : FileSystem} {now : Timestamp} {data : CacheData} {before between after : FileCache}

theorem nil (c : FileCache) : Recorded a fs now data c c [] where
  hits := rfl
  misses := rfl
  counted := rfl
  entries _ he := .inl he
  paths _ := ⟨.inl, fun h => h.elim id fun ⟨_, hp, _⟩ => absurd hp List.not_mem_nil⟩

theorem append {first second : List Path} (h : Recorded a fs now data before between first)
    (h' : Recorded a fs now data between after second) : Recorded a fs now data before after (first ++ second) where
  hits := by rw [h'.hits, h.hits, List.countP_append, Nat.add_assoc]
  misses := by rw [h'.misses, h.misses, List.countP_append, Nat.add_assoc]
  counted := by rw [h'.counted, h.counted, List.countP_append, Nat.add_assoc]
  entries e he := by
    rcases h'.entries e he with hbetween | ⟨p, hp, hentry⟩
    · rcases h.entries e hbetween with hbefore | ⟨p, hp, hentry⟩
      · exact .inl hbefore
      · exact .inr ⟨p, List.mem_append_left _ hp, hentry⟩
    · exact .inr ⟨p, List.mem_append_right _ hp, hentry⟩
  paths q := by
    rw [h'.paths, h.paths, or_assoc]
    simp only [List.mem_append, or_and_right, exists_or]

/-- Entering what one file contributes. -/
theorem record (a : Analyzer) (fs : FileSystem) (now : Timestamp) (data : CacheData) (c : FileCache) (p : Path) :
    Recorded a fs now data c ((a.wholeContribution fs data p).record a.fingerprint now c) [p] := by
  have hreadable := a.isOk_readSource_eq fs data p
  cases hwhole : a.wholeContribution fs data p with
  | kept report =>
    rw [hwhole] at hreadable
    have hkept : (fs.readSource p).isOk = true := hreadable
    refine ⟨?_, ?_, ?_, fun e he => .inl he, fun q => ?_⟩
    · simp [hwhole, Contribution.isKept, Contribution.record, countHit, CacheData.countHit]
    · simp [hwhole, Contribution.isNew, Contribution.record, countHit, CacheData.countHit]
    · simp only [Contribution.record, countHit, CacheData.countHit, List.countP_singleton, hkept, if_true]
      omega
    · simp [hwhole, Contribution.isNew, Contribution.record, countHit, CacheData.countHit]
  | unreadable report =>
    rw [hwhole] at hreadable
    have hunreadable : (fs.readSource p).isOk = false := hreadable
    refine ⟨?_, ?_, ?_, fun e he => .inl he, fun q => ?_⟩
    · simp [hwhole, Contribution.isKept, Contribution.record]
    · simp [hwhole, Contribution.isNew, Contribution.record]
    · simp [hunreadable, Contribution.record]
    · simp [hwhole, Contribution.isNew, Contribution.record]
  | new file hash report =>
    have hnew : (a.wholeContribution fs data p).isNew := by rw [hwhole]; rfl
    obtain ⟨source, hsource, heq⟩ := Analyzer.exists_source_of_isNew hnew
    rw [hwhole] at hreadable
    have hkept : (fs.readSource p).isOk = true := hreadable
    cases hwhole.symm.trans heq
    refine ⟨?_, ?_, ?_, fun e he => ?_, fun q => ?_⟩
    · simp [hwhole, Contribution.isKept, Contribution.record, store, CacheData.store]
    · simp [hnew, Contribution.record, store, CacheData.store]
    · simp only [Contribution.record, store, CacheData.store, List.countP_singleton, hkept, if_true]
      omega
    · rcases mem_insertByPath he with hold | ⟨hsame, hvalue⟩
      · exact .inl hold
      · exact .inr ⟨p, List.mem_singleton.mpr rfl, hsame, source, hsource, hvalue⟩
    · have hpaths := exists_same_insertByPath p q ⟨contentHash source, a.fingerprint, now, a.files.report p source⟩
        c.data.files
      simp only [List.mem_singleton, exists_eq_left, hnew, and_true]
      exact hpaths

/-- Entering what several files contribute, one after the other. -/
theorem foldl_record (a : Analyzer) (fs : FileSystem) (now : Timestamp) (data : CacheData) (c : FileCache)
    (files : List Path) :
    Recorded a fs now data c
      ((files.map (a.wholeContribution fs data)).foldl (Contribution.record a.fingerprint now) c) files := by
  induction files generalizing c with
  | nil => exact nil c
  | cons p files ih => exact (record a fs now data c p).append (ih _)

end FileCache.Recorded

/-! ### Interrupted runs -/

/-- A run over divided tasks ends with a report on the files that contribute, each of them with all that is found in it,
whenever it is interrupted. So does a run with a cache, which counts and keeps what the contributing files that can be
read contribute, and nothing else. -/
theorem Analyzer.interrupted_run (a : Analyzer) (fs : FileSystem) (noted : List Diagnostic) (cache : FileCache)
    (now : Timestamp) (d : Division) :
    (a.reportOf noted (d.run (a.analyzeFile fs))).AllOrNothing (a.settings.diagnostics ++ noted)
      (a.analyzeFile fs) (a.found fs) id d.tasks ∧
    (a.conclude noted cache now (d.run (a.contribution fs cache.data))).1.AllOrNothing
      (a.settings.diagnostics ++ noted) (a.contribution fs cache.data) (a.wholeContribution fs cache.data)
      Contribution.report d.tasks ∧
    FileCache.Recorded a fs now cache.data cache (a.conclude noted cache now (d.run (a.contribution fs cache.data))).2
      ((d.tasks.filter (·.contributes (a.contribution fs cache.data))).map (·.file)) := by
  rw [Division.run_eq, Division.run_eq]
  refine ⟨?_, ?_, ?_⟩
  · have hreport := Report.allOrNothing_reportOf a noted (a.eq_found_of_analyzeFile fs) (a.analyzeFile_never fs) id
      d.tasks
    rwa [List.map_id] at hreport
  · exact Report.allOrNothing_reportOf a noted (a.eq_whole_of_contribution fs cache.data)
      (a.contribution_never fs cache.data) Contribution.report d.tasks
  · have hitems := Batch.items_eq_of_whole (a.eq_whole_of_contribution fs cache.data) d.tasks
    have hrecorded := FileCache.Recorded.foldl_record a fs now cache.data cache
      ((d.tasks.filter (·.contributes (a.contribution fs cache.data))).map (·.file))
    rw [List.map_map] at hrecorded
    rw [conclude, hitems]
    exact hrecorded

end CSharpStyle
