import CSharpStyle.Proofs.Settings.Usability
import CSharpStyle.Proofs.Text.Utf8
import CSharpStyle.Settings.Fingerprint

/-!
# What a fingerprint stream tells

The stream that is hashed for a fingerprint determines the effective settings.

* `Fingerprint.Delimited`: a code that tells where it ends.
* `Fingerprint.effective_of_stream_eq`: settings with the same stream have the same version, path patterns, name of
  ignore files and selected rules.
-/

namespace CSharpStyle

theorem Severity.rank_injective {a b : Severity} (h : a.rank = b.rank) : a = b := by
  cases a <;> cases b <;> first | rfl | cases h

theorem Rule.name_injective {a b : Rule} (h : a.name = b.name) : a = b :=
  Option.some.inj (a.ofName?_name.symm.trans ((congrArg ofName? h).trans b.ofName?_name))

namespace Fingerprint

/-- A code that tells where it ends. -/
def Delimited {α : Type} (encode : α → List UInt8) : Prop :=
  ∀ {a b : α} {rest rest' : List UInt8}, encode a ++ rest = encode b ++ rest' → a = b ∧ rest = rest'

/-! ### Numbers -/

theorem length_number (n : Nat) : (number n).length = 8 := by simp [number]

/-- A number is written with its lowest 64 bits. -/
theorem mod_eq_of_number_eq {n m : Nat} (h : number n = number m) : n % UInt64.size = m % UInt64.size := by
  have hbyte (i : Nat) (hi : i < 8) : (n >>> (8 * i)) % 256 = (m >>> (8 * i)) % 256 := by
    have hmap := List.map_inj_left.mp h i (List.mem_range.mpr hi)
    simpa using congrArg UInt8.toNat hmap
  have h0 := hbyte 0 (by decide)
  have h1 := hbyte 1 (by decide)
  have h2 := hbyte 2 (by decide)
  have h3 := hbyte 3 (by decide)
  have h4 := hbyte 4 (by decide)
  have h5 := hbyte 5 (by decide)
  have h6 := hbyte 6 (by decide)
  have h7 := hbyte 7 (by decide)
  simp only [Nat.shiftRight_eq_div_pow, Nat.mul_zero, Nat.pow_zero, Nat.div_one, Nat.reduceMul, Nat.reducePow] at *
  rw [UInt64.size]
  omega

theorem number_append {n m : Nat} {rest rest' : List UInt8} (h : number n ++ rest = number m ++ rest') :
    n % UInt64.size = m % UInt64.size ∧ rest = rest' := by
  obtain ⟨hnumber, hrest⟩ := List.append_inj h (by rw [length_number, length_number])
  exact ⟨mod_eq_of_number_eq hnumber, hrest⟩

/-! ### Texts, options and lists -/

/-- What stands in front of the first `x` is known. -/
private theorem append_inj_of_not_mem {x : UInt8} {before before' rest rest' : List UInt8} (h : x ∉ before)
    (h' : x ∉ before') (heq : before ++ x :: rest = before' ++ x :: rest') : before = before' ∧ rest = rest' := by
  have htake {front behind : List UInt8} (hfront : x ∉ front) :
      (front ++ x :: behind).takeWhile (· != x) = front := by
    have hall : ∀ b ∈ front, (b != x) = true := fun b hb => bne_iff_ne.mpr (ne_of_mem_of_not_mem hb hfront)
    rw [List.takeWhile_append_of_pos hall, List.takeWhile_cons_of_neg (by simp), List.append_nil]
  have hbefore : before = before' := by rw [← htake h, heq, htake h']
  subst hbefore
  exact ⟨rfl, (List.cons.inj (List.append_cancel_left heq)).2⟩

theorem delimited_text : Delimited text := by
  intro s t rest rest' h
  rw [text, text, List.append_assoc, List.append_assoc] at h
  obtain ⟨hbytes, hrest⟩ := append_inj_of_not_mem (fun hs => Utf8.ne_of_mem_encode hs rfl)
    (fun ht => Utf8.ne_of_mem_encode ht rfl) h
  exact ⟨Utf8.encode_injective hbytes, hrest⟩

section

variable {α : Type} {encode : α → List UInt8} (hcode : Delimited encode)

include hcode

theorem Delimited.option : Delimited (option encode) := by
  intro a b rest rest' h
  rcases a with _ | a <;> rcases b with _ | b <;> simp only [Fingerprint.option, List.append_assoc] at h <;>
    obtain ⟨htag, hrest⟩ := number_append h
  · exact ⟨rfl, hrest⟩
  · exact absurd htag (by decide)
  · exact absurd htag (by decide)
  · obtain ⟨rfl, hbehind⟩ := hcode hrest
    exact ⟨rfl, hbehind⟩

/-- Lists of the same length are known from their items. -/
theorem Delimited.flatMap {items items' : List α} {rest rest' : List UInt8} (hlength : items.length = items'.length)
    (h : items.flatMap encode ++ rest = items'.flatMap encode ++ rest') : items = items' ∧ rest = rest' := by
  induction items generalizing items' with
  | nil =>
    cases List.length_eq_zero_iff.mp hlength.symm
    exact ⟨rfl, h⟩
  | cons a items ih =>
    obtain ⟨b, items', rfl⟩ := List.exists_cons_of_length_eq_add_one hlength.symm
    rw [List.flatMap_cons, List.flatMap_cons, List.append_assoc, List.append_assoc] at h
    obtain ⟨rfl, hitems⟩ := hcode h
    obtain ⟨rfl, hrest⟩ := ih (Nat.succ.inj hlength) hitems
    exact ⟨rfl, hrest⟩

/-- At the end of a stream, lists are known from their items. -/
theorem Delimited.flatMap_injective (hne : ∀ a, encode a ≠ []) {items items' : List α}
    (h : items.flatMap encode = items'.flatMap encode) : items = items' := by
  induction items generalizing items' with
  | nil =>
    cases items' with
    | nil => rfl
    | cons b items' => exact absurd (List.append_eq_nil_iff.mp h.symm).1 (hne b)
  | cons a items ih =>
    cases items' with
    | nil => exact absurd (List.append_eq_nil_iff.mp h).1 (hne a)
    | cons b items' =>
      rw [List.flatMap_cons, List.flatMap_cons] at h
      obtain ⟨rfl, hitems⟩ := hcode h
      rw [ih hitems]

end

/-! ### Settings -/

theorem delimited_selection : Delimited selection := by
  intro s t rest rest' h
  obtain ⟨rule, severity, pattern⟩ := s
  obtain ⟨rule', severity', pattern'⟩ := t
  simp only [selection, List.append_assoc] at h
  obtain ⟨hname, hbehindName⟩ := delimited_text h
  obtain ⟨hrank, hbehindRank⟩ := number_append hbehindName
  obtain ⟨rfl, hrest⟩ := delimited_text.option hbehindRank
  cases Rule.name_injective hname
  have hlt (severity : Severity) : severity.rank % UInt64.size = severity.rank := by cases severity <;> rfl
  rw [hlt, hlt] at hrank
  cases Severity.rank_injective hrank
  exact ⟨rfl, hrest⟩

theorem selection_ne_nil (s : Selection) : selection s ≠ [] := by
  simp [selection, text]

/-- What stands in the stream behind the path patterns. -/
def tail (s : Settings) : List UInt8 := option text s.paths.ignoreFile ++ s.selections.flatMap selection

theorem stream_eq (s : Settings) :
    stream s = text s.version ++ (number s.paths.patterns.length ++ (s.paths.patterns.flatMap text ++ tail s)) := by
  simp only [stream, list, tail, List.append_assoc]

theorem count_text (s : String) : (text s).count 0xFF = 1 := by
  rw [text, List.count_append, List.count_eq_zero.mpr fun h => Utf8.ne_of_mem_encode h rfl]
  rfl

theorem count_option_text_le (s : Option String) : (option text s).count 0xFF ≤ 9 := by
  have hnumber (n : Nat) : (number n).count 0xFF ≤ 8 := length_number n ▸ List.count_le_length
  cases s with
  | none => exact Nat.le_succ_of_le (hnumber 0)
  | some s =>
    rw [option, List.count_append, count_text]
    exact Nat.succ_le_succ (hnumber 1)

theorem count_selection_le (s : Selection) : (selection s).count 0xFF ≤ 18 := by
  have hnumber : (number s.severity.rank).count 0xFF ≤ 8 := length_number _ ▸ List.count_le_length
  have hpattern := count_option_text_le s.pattern
  rw [selection, List.count_append, List.count_append, count_text]
  omega

/-- Texts end often in front of the selected rules only. -/
theorem count_tail_le (s : Settings) : (tail s).count 0xFF ≤ 300 := by
  have hselections : (s.selections.flatMap selection).count 0xFF ≤ 18 * s.selections.length := by
    induction s.selections with
    | nil => exact Nat.le_refl 0
    | cons c selections ih =>
      have hc := count_selection_le c
      rw [List.flatMap_cons, List.count_append, List.length_cons]
      omega
  have hlength : s.selections.length ≤ 16 := by
    rw [Settings.selections, List.length_map]
    exact List.length_filter_le _ Rule.all
  have hignore := count_option_text_le s.paths.ignoreFile
  rw [tail, List.count_append]
  omega

/-- The stream determines the effective settings.

The number of path patterns is written with 64 bits only. That it is known all the same follows from the number of
texts that end in the stream, of which only few can stand behind the path patterns. -/
theorem effective_of_stream_eq {s t : Settings} (h : stream s = stream t) :
    s.version = t.version ∧ s.paths = t.paths ∧ s.selections = t.selections := by
  rw [stream_eq, stream_eq] at h
  obtain ⟨hversion, h⟩ := delimited_text h
  obtain ⟨hmod, h⟩ := number_append h
  have hcount : s.paths.patterns.length + (tail s).count 0xFF = t.paths.patterns.length + (tail t).count 0xFF := by
    have htexts (texts : List String) : (texts.flatMap text).count 0xFF = texts.length := by
      induction texts with
      | nil => rfl
      | cons a texts ih => rw [List.flatMap_cons, List.count_append, count_text, ih, List.length_cons, Nat.add_comm]
    rw [← htexts s.paths.patterns, ← htexts t.paths.patterns, ← List.count_append, ← List.count_append, h]
  have hlength : s.paths.patterns.length = t.paths.patterns.length := by
    have hs := count_tail_le s
    have ht := count_tail_le t
    rw [UInt64.size] at hmod
    omega
  obtain ⟨hpatterns, h⟩ := delimited_text.flatMap hlength h
  obtain ⟨hignore, h⟩ := delimited_text.option h
  have hpaths : s.paths = t.paths := by
    rcases hs : s.paths with ⟨patterns, ignoreFile⟩
    rcases ht : t.paths with ⟨patterns', ignoreFile'⟩
    rw [hs, ht] at hpatterns hignore
    rw [show patterns = patterns' from hpatterns, show ignoreFile = ignoreFile' from hignore]
  exact ⟨hversion, hpaths, delimited_selection.flatMap_injective selection_ne_nil h⟩

end Fingerprint

end CSharpStyle
