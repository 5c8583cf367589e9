import CSharpStyle.Cache.Store
import CSharpStyle.Proofs.Format.PrintedJson
import CSharpStyle.Proofs.Workspace.Writing

/-!
# No change of a cache is lost

Whatever is done with an opened cache, and however it fails, a cache that is not marked as changed is what its file
holds. So a cache that has been saved is found again when its file is opened.

* `CacheData.parse?_print`: nothing is lost in the printed form.
* `Reached`: the files and the cache behind a history of operations.
* `reload_cases`, `save_cases`: all that loading and saving can do.
* `Kept`: the invariant. `Kept.call` keeps it over one operation, and `Reached.kept` over a history.
* `Kept.ofFile_eq`: opening the file of a cache without changes gives the cache.
-/

namespace CSharpStyle

/-! ### The printed form -/

open JsonReader (Fits)

theorem Violation.fits_toJson (depth : Nat) (v : Violation) : Fits (depth + 1) v.toJson := by
  simp [toJson]

theorem Diagnostic.fits_toJson (depth : Nat) (d : Diagnostic) : Fits (depth + 1) d.toJson := by
  simp [toJson]

theorem FileReport.fits_toJson (depth : Nat) (r : FileReport) : Fits (depth + 3) r.toJson := by
  simp [toJson, Violation.fits_toJson, Diagnostic.fits_toJson]

theorem CacheEntry.fits_toJson (depth : Nat) (e : CacheEntry) : Fits (depth + 4) e.toJson := by
  simp [toJson, Timestamp.toJson, FileReport.fits_toJson]

theorem CacheData.fits_toJson (depth : Nat) (d : CacheData) : Fits (depth + 6) d.toJson := by
  have hmetadata : Fits (depth + 5) d.metadataToJson := by simp [metadataToJson, Timestamp.toJson]
  rw [toJson, JsonReader.fits_object]
  refine List.forall_mem_cons.mpr
    ⟨.natural .., List.forall_mem_cons.mpr ⟨.object fun entry hentry => ?_, List.forall_mem_singleton.mpr hmetadata⟩⟩
  obtain ⟨⟨p, e⟩, -, rfl⟩ := List.mem_map.mp hentry
  exact e.fits_toJson depth

/-- Nothing is lost in the text, so that a cache is read back if its values are. -/
theorem CacheData.parse?_print (d : CacheData) : parse? d.print = ofJson? d.toJson := by
  rw [parse?, print, JsonValue.parse?_print (d.fits_toJson 121), Option.bind_some]

namespace FileCache

/-! ### Histories -/

/-- The cache as a save writes it. -/
def touched (c : FileCache) (now : Timestamp) : FileCache := { c with data := { c.data with updatedAt := now } }

/-- The cache without its data, which its file can still hold. -/
def emptied (c : FileCache) (now : Timestamp) : FileCache := { c with data := .empty now, isChanged := true }

/-- What a program does with its cache. -/
inductive Operation
  | store (p : Path) (contentHash fingerprint : String) (results : FileReport)
  | countHit
  | cleanup
  | clear
  | reload
  | save

namespace Operation

/-- Calls an operation at a point in time. -/
def call (c : FileCache) (fs : FileSystem) (now : Timestamp) : Operation → Outcome
  | store p contentHash fingerprint results => ⟨fs, c.store p contentHash fingerprint results now, .ok ()⟩
  | countHit => ⟨fs, c.countHit, .ok ()⟩
  | cleanup => ⟨fs, c.cleanup fs, .ok ()⟩
  | clear => c.clear fs now
  | reload => c.reload fs now
  | save => c.save fs now

/-- The data that an operation prints for the file. -/
def printed (c : FileCache) (now : Timestamp) : Operation → List CacheData
  | save => if c.isChanged then [(c.touched now).data] else []
  | _ => []

end Operation

/-- The files and the cache behind a history that starts when the cache is opened, with all data that was printed.
Operations are called at any times. Besides failing for what they find, saving and clearing can be broken off while
they are at the file, which leaves any files behind. Nothing else changes what the path of the cache leads to. -/
inductive Reached (path : Path) : List CacheData → FileSystem → FileCache → Prop
  | opened {fs : FileSystem} {c : FileCache} (now : Timestamp) (hopen : ofFile path fs now = .ok c) :
      Reached path [] fs c
  | called {printed : List CacheData} {fs : FileSystem} {c : FileCache} (operation : Operation) (now : Timestamp)
      (h : Reached path printed fs c) :
      Reached path (printed ++ operation.printed c now) (operation.call c fs now).files
        (operation.call c fs now).cache
  | saveBroken {printed : List CacheData} {fs : FileSystem} {c : FileCache} (now : Timestamp) (files : FileSystem)
      (hchanged : c.isChanged = true) (h : Reached path printed fs c) : Reached path printed files (c.touched now)
  | clearBroken {printed : List CacheData} {fs : FileSystem} {c : FileCache} (now : Timestamp) (files : FileSystem)
      (h : Reached path printed fs c) : Reached path printed files (c.emptied now)
  | elsewhere {printed : List CacheData} {fs : FileSystem} {c : FileCache} (files : FileSystem)
      (hsame : files.lookup? path = fs.lookup? path) (h : Reached path printed fs c) :
      Reached path printed files c

/-! ### Operations -/

theorem reload_cases (c : FileCache) (fs : FileSystem) (now : Timestamp) :
    c.reload fs now = ⟨fs, c.emptied now, .ok ()⟩ ∨ (∃ e, c.reload fs now = ⟨fs, c, .error e⟩) ∨
      ∃ text data, fs.readText c.path = .ok text ∧ CacheData.parse? text = some data ∧
        c.reload fs now = ⟨fs, { c with data }.migrated now, .ok ()⟩ := by
  unfold reload
  split
  · exact .inl rfl
  · split
    · exact .inr (.inl ⟨_, rfl⟩)
    · next text htext =>
      split
      · exact .inr (.inl ⟨_, rfl⟩)
      · next data hdata => exact .inr (.inr ⟨text, data, htext, hdata, rfl⟩)

theorem reload_files (c : FileCache) (fs : FileSystem) (now : Timestamp) : (c.reload fs now).files = fs := by
  rcases reload_cases c fs now with hload | ⟨e, hload⟩ | ⟨text, data, -, -, hload⟩ <;> rw [hload]

/-- A load that fails leaves the cache as it was. -/
theorem reload_cache_of_error {c : FileCache} {fs : FileSystem} {now : Timestamp} {e : Failure}
    (h : (c.reload fs now).result = .error e) : (c.reload fs now).cache = c := by
  rcases reload_cases c fs now with hload | ⟨e, hload⟩ | ⟨text, data, -, -, hload⟩
  · rw [hload] at h
    cases h
  · rw [hload]
  · rw [hload] at h
    cases h

/-- The mark is taken off only if the file has been written. -/
theorem save_cases (c : FileCache) (fs : FileSystem) (now : Timestamp) :
    (c.isChanged = false ∧ c.save fs now = ⟨fs, c, .ok ()⟩) ∨
      (c.isChanged = true ∧ ∃ files e, c.save fs now = ⟨files, c.touched now, .error e⟩) ∨
      (c.isChanged = true ∧ ∃ prepared files : FileSystem,
        prepared.write c.path (Utf8.encode (c.touched now).data.print) = .ok files ∧
          c.save fs now = ⟨files, { c.touched now with isChanged := false }, .ok ()⟩) := by
  unfold save
  split
  · next hchanged => exact .inl ⟨by simpa using hchanged, rfl⟩
  · next hchanged =>
    have hchanged : c.isChanged = true := by simpa using hchanged
    refine .inr ?_
    dsimp only
    split
    · exact .inl ⟨hchanged, _, _, rfl⟩
    · next prepared _ =>
      split
      · exact .inl ⟨hchanged, _, _, rfl⟩
      · next files hwrite => exact .inr ⟨hchanged, prepared, files, hwrite, rfl⟩

theorem save_isChanged_of_ok {c : FileCache} {fs : FileSystem} {now : Timestamp}
    (h : (c.save fs now).result = .ok ()) : (c.save fs now).cache.isChanged = false := by
  rcases save_cases c fs now with ⟨hclean, hsave⟩ | ⟨-, files, e, hsave⟩ | ⟨-, prepared, files, -, hsave⟩
  · rw [hsave]
    exact hclean
  · rw [hsave] at h
    cases h
  · rw [hsave]

theorem clear_cache (c : FileCache) (fs : FileSystem) (now : Timestamp) :
    (c.clear fs now).cache = c.emptied now := by
  simp only [clear]
  split
  · split <;> rfl
  · rfl

/-- Without a mark, nothing was dropped. -/
theorem cleanup_eq_self {c : FileCache} {fs : FileSystem} (h : (c.cleanup fs).isChanged = false) :
    c.cleanup fs = c := by
  rw [cleanup, Bool.or_eq_false_iff, decide_eq_false_iff_not, Nat.not_lt] at h
  have hkept : c.data.files.filter (fun entry => fs.exists? entry.1) = c.data.files :=
    List.filter_sublist.eq_of_length_le h.2
  simp only [cleanup, hkept, Nat.lt_irrefl, decide_false, Bool.or_false]

/-! ### The invariant -/

/-- The cache has the version of the layout that is in use. If it is not marked as changed, its file holds its data. -/
structure Kept (path : Path) (fs : FileSystem) (c : FileCache) : Prop where
  path_eq : c.path = path
  version : c.data.version = CacheData.currentVersion
  onFile : c.isChanged = false → ∃ text, fs.readText path = .ok text ∧ CacheData.parse? text = some c.data

namespace Kept

variable {path : Path} {fs : FileSystem} {c : FileCache}

/-- A cache with a mark promises nothing about its file. -/
theorem of_isChanged (hpath : c.path = path) (hversion : c.data.version = CacheData.currentVersion)
    (hchanged : c.isChanged = true) : Kept path fs c :=
  ⟨hpath, hversion, fun h => by rw [h] at hchanged; cases hchanged⟩

/-- After a load that succeeds the invariant holds, whatever was in the cache. -/
theorem of_reload (hpath : c.path = path) {now : Timestamp} (hloaded : (c.reload fs now).result = .ok ()) :
    Kept path fs (c.reload fs now).cache := by
  rcases reload_cases c fs now with hload | ⟨e, hload⟩ | ⟨text, data, htext, hdata, hload⟩
  · rw [hload]
    exact of_isChanged hpath rfl rfl
  · rw [hload] at hloaded
    cases hloaded
  · rw [hload]
    by_cases hversion : data.version = CacheData.currentVersion
    · rw [migrated, if_pos hversion]
      exact ⟨hpath, hversion, fun _ => ⟨text, hpath ▸ htext, hdata⟩⟩
    · rw [migrated, if_neg hversion]
      exact of_isChanged hpath rfl rfl

theorem of_ofFile {now : Timestamp} (hopen : ofFile path fs now = .ok c) : Kept path fs c := by
  rw [ofFile, load] at hopen
  cases hloaded : ((empty path now).reload fs now).result with
  | error e =>
    rw [hloaded] at hopen
    cases hopen
  | ok _ =>
    rw [hloaded] at hopen
    cases hopen
    exact of_reload rfl hloaded

theorem save (h : Kept path fs c) {now : Timestamp}
    (hcodec : ∀ d ∈ Operation.save.printed c now, CacheData.parse? d.print = some d) :
    Kept path (c.save fs now).files (c.save fs now).cache := by
  rcases save_cases c fs now with ⟨-, hsave⟩ | ⟨hchanged, files, e, hsave⟩ | ⟨hchanged, prepared, files, hwrite, hsave⟩
  · rw [hsave]
    exact h
  · -- The mark stays, so that nothing is said of the file, which can be broken.
    rw [hsave]
    exact of_isChanged h.path_eq h.version hchanged
  · rw [hsave]
    refine ⟨h.path_eq, h.version, fun _ => ⟨(c.touched now).data.print, ?_, ?_⟩⟩
    · rw [h.path_eq] at hwrite
      exact FileSystem.readText_eq_ok_iff.mpr ⟨_, FileSystem.lookup?_write hwrite, Utf8.decode?_encode _⟩
    · refine hcodec _ ?_
      rw [Operation.printed, if_pos hchanged]
      exact List.mem_singleton_self _

/-- Every operation keeps the invariant, if what it prints is read back. -/
theorem call (h : Kept path fs c) (operation : Operation) (now : Timestamp)
    (hcodec : ∀ d ∈ operation.printed c now, CacheData.parse? d.print = some d) :
    Kept path (operation.call c fs now).files (operation.call c fs now).cache := by
  cases operation with
  | store => exact of_isChanged h.path_eq h.version rfl
  | countHit => exact of_isChanged h.path_eq h.version rfl
  | cleanup =>
    -- Without a mark behind it nothing was dropped, and there was no mark before either.
    refine ⟨h.path_eq, h.version, fun hclean => ?_⟩
    change ∃ text, fs.readText path = .ok text ∧ CacheData.parse? text = some (c.cleanup fs).data
    rw [cleanup_eq_self hclean]
    exact h.onFile (by rw [← cleanup_eq_self hclean]; exact hclean)
  | clear =>
    change Kept path _ (c.clear fs now).cache
    rw [clear_cache]
    exact of_isChanged h.path_eq rfl rfl
  | reload =>
    change Kept path (c.reload fs now).files (c.reload fs now).cache
    rw [reload_files]
    cases hloaded : (c.reload fs now).result with
    | ok _ => exact of_reload h.path_eq hloaded
    | error e => rwa [reload_cache_of_error hloaded]
  | save => exact h.save hcodec

/-- A cache without changes is found again when its file is opened. -/
theorem ofFile_eq (h : Kept path fs c) (hclean : c.isChanged = false) (now : Timestamp) :
    ofFile path fs now = .ok c := by
  obtain ⟨text, htext, hdata⟩ := h.onFile hclean
  have hexists : fs.exists? path = true := by
    obtain ⟨bytes, hbytes, -⟩ := FileSystem.readText_eq_ok_iff.mp htext
    rw [FileSystem.exists?, hbytes]
    rfl
  obtain ⟨path', data, isChanged⟩ := c
  obtain rfl : path' = path := h.path_eq
  obtain rfl : isChanged = false := hclean
  simp only [ofFile, load, reload, empty, hexists, htext, hdata, Bool.not_true, Bool.false_eq_true, if_false,
    migrated, if_pos h.version]
  rfl

end Kept

theorem Reached.kept {path : Path} {printed : List CacheData} {fs : FileSystem} {c : FileCache}
    (h : Reached path printed fs c) (hcodec : ∀ d ∈ printed, CacheData.parse? d.print = some d) : Kept path fs c := by
  induction h with
  | opened now hopen => exact .of_ofFile hopen
  | called operation now h ih =>
    obtain ⟨hbefore, hprinted⟩ := List.forall_mem_append.mp hcodec
    exact (ih hbefore).call operation now hprinted
  | saveBroken now files hchanged h ih => exact .of_isChanged (ih hcodec).path_eq (ih hcodec).version hchanged
  | clearBroken now files h ih => exact .of_isChanged (ih hcodec).path_eq rfl rfl
  | elsewhere files hsame h ih =>
    obtain ⟨hpath, hversion, honFile⟩ := ih hcodec
    refine ⟨hpath, hversion, fun hclean => ?_⟩
    obtain ⟨text, htext, hdata⟩ := honFile hclean
    refine ⟨text, ?_, hdata⟩
    rwa [FileSystem.readText_eq_ok_iff, hsame, ← FileSystem.readText_eq_ok_iff]

/-- No change is lost. In every state that is reached, a cache without a mark is what its file holds. A cache that has
been saved is the one that is opened later, with all its entries and numbers. A load that fails leaves the data as they
were. -/
theorem Reached.persistent {path : Path} {printed : List CacheData} {fs : FileSystem} {c : FileCache}
    (h : Reached path printed fs c) (hcodec : ∀ d ∈ printed, CacheData.parse? d.print = some d) :
    (c.isChanged = false → ∃ text, fs.readText path = .ok text ∧ CacheData.parse? text = some c.data) ∧
      (∀ now, (∀ d ∈ Operation.save.printed c now, CacheData.parse? d.print = some d) →
        (c.save fs now).result = .ok () →
        ∀ later, ofFile path (c.save fs now).files later = .ok (c.save fs now).cache) ∧
      ∀ now e, (c.reload fs now).result = .error e → (c.reload fs now).cache.data = c.data := by
  have hkept : Kept path fs c := h.kept hcodec
  refine ⟨hkept.onFile, fun now hprinted hsaved later => ?_, fun now e hfailed => ?_⟩
  · exact (hkept.save hprinted).ofFile_eq (save_isChanged_of_ok hsaved) later
  · rw [reload_cache_of_error hfailed]

/-- A cache is opened without a file, takes an entry, is saved, counts an answer and is saved again. When that save is
broken off instead, the file that is left behind cannot be loaded, and nothing is lost. -/
theorem Reached.persistent_stored :
    let stored := FileCache.store ⟨⟨".lintcs/cache.json"⟩, .empty ⟨0, 0⟩, true⟩ ⟨"A.cs"⟩ "00" "ff" {} ⟨1, 0⟩
    let saved := stored.save (.startingAt ["work"]) ⟨2, 0⟩
    let counted := saved.cache.countHit.save saved.files ⟨3, 0⟩
    let unfinished := saved.files.put ["work", ".lintcs", "cache.json"] (.file (Utf8.encode "\x7b"))
    let reloaded := (saved.cache.countHit.touched ⟨3, 0⟩).reload unfinished ⟨4, 0⟩
    counted.result = .ok () ∧ ofFile ⟨".lintcs/cache.json"⟩ counted.files ⟨4, 0⟩ = .ok counted.cache ∧
      reloaded.result = .error .malformedCache ∧ reloaded.cache.data = (saved.cache.countHit.touched ⟨3, 0⟩).data := by
  intro stored saved counted unfinished reloaded
  have hopened : Reached ⟨".lintcs/cache.json"⟩ [] (.startingAt ["work"])
      ⟨⟨".lintcs/cache.json"⟩, .empty ⟨0, 0⟩, true⟩ := .opened ⟨0, 0⟩ rfl
  have hstored := hopened.called (.store ⟨"A.cs"⟩ "00" "ff" {}) ⟨1, 0⟩
  have hsaved : Reached ⟨".lintcs/cache.json"⟩ _ saved.files saved.cache := hstored.called .save ⟨2, 0⟩
  have hcounted : Reached ⟨".lintcs/cache.json"⟩ _ saved.files saved.cache.countHit := hsaved.called .countHit ⟨2, 0⟩
  have hbroken := hcounted.saveBroken ⟨3, 0⟩ unfinished rfl
  have hsavedAgain : counted.result = .ok () := by decide +kernel
  have hmalformed : reloaded.result = .error .malformedCache := by decide +kernel
  refine ⟨hsavedAgain, (hcounted.persistent ?_).2.1 ⟨3, 0⟩ ?_ hsavedAgain ⟨4, 0⟩, hmalformed,
    (hbroken.persistent ?_).2.2 ⟨4, 0⟩ _ hmalformed⟩
  all_goals
    simp only [CacheData.parse?_print]
    decide +kernel

end FileCache

end CSharpStyle
