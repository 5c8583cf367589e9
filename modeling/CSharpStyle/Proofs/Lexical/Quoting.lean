import CSharpStyle.Proofs.Lexical.StringLiteral

/-!
# Strings written as literals

Every string can be written as a literal: some characters stand behind a backslash or twice, and quotes stand around
the result.  Such a text is one literal again, with one exception.  Behind both marks `$` and `@` a quote at the
beginning of the string makes three quotes with the opening one, which open a raw string.

* `Quoting.closes_literal`: the quote at the end is the one that closes.
* `Quoting.closes_raw_iff`: when the opening of a raw string meets the quotes of a string that are written twice.
* `Quoting.isLiteral_literal_iff`: which strings are read back.
-/

namespace CSharpStyle

/-- The ways to write a string between two quotes, by the marks in front of them. -/
inductive Quoting
  | regular
  | verbatim
  | interpolated
  | interpolatedVerbatim
  | verbatimInterpolated
  deriving DecidableEq, Repr

namespace Quoting

def sigils : Quoting → List Char
  | regular => []
  | verbatim => ['@']
  | interpolated => ['$']
  | interpolatedVerbatim => ['$', '@']
  | verbatimInterpolated => ['@', '$']

def isVerbatim (q : Quoting) : Bool := q.sigils.contains '@'

def isInterpolated (q : Quoting) : Bool := q.sigils.contains '$'

/-- The characters that need a backslash in front of them. -/
def escaped (q : Quoting) : List Char := if q.isVerbatim then [] else ['\\', '"']

/-- The characters that are written twice. -/
def doubled (q : Quoting) : List Char :=
  (if q.isVerbatim then ['"'] else []) ++ if q.isInterpolated then ['\x7b', '\x7d'] else []

def written (q : Quoting) (c : Char) : List Char :=
  if c ∈ q.escaped then ['\\', c] else if c ∈ q.doubled then [c, c] else [c]

/-- The literal for a string. -/
def literal (q : Quoting) (value : String) : String :=
  String.ofList (q.sigils ++ '"' :: (value.toList.flatMap q.written ++ ['"']))

theorem opensString (q : Quoting) : OpensString q.sigils := by
  cases q with
  | regular => exact .inl rfl
  | verbatim => exact .inr (.inl rfl)
  | interpolated | interpolatedVerbatim | verbatimInterpolated =>
    exact .inr (.inr ⟨List.all_eq_true.mp rfl, by decide⟩)

/-! ### One quote -/

/-- A character of the string leaves the literal as open as it was. -/
theorem closes_written (q : Quoting) {c : Char} (hc : q.isVerbatim ∨ c ≠ '\n') (rest : List Char) :
    Opened.Closes [.string q.sigils] (q.written c ++ rest) ↔ Opened.Closes [.string q.sigils] rest := by
  rw [Opened.closes_iff, Opened.closes_iff]
  by_cases hspecial : c ∈ ['\\', '"', '\x7b', '\x7d']
  · simp only [List.mem_cons, List.not_mem_nil, or_false] at hspecial
    rcases hspecial with rfl | rfl | rfl | rfl <;> cases q <;> rfl
  · simp only [List.mem_cons, List.not_mem_nil, or_false, not_or] at hspecial
    obtain ⟨hbackslash, hquote, hopen, hclose⟩ := hspecial
    have hwritten : q.written c = [c] := by
      cases q <;> simp [written, escaped, doubled, isVerbatim, isInterpolated, sigils, *]
    have hstep : (Opened.string q.sigils).step c rest = .ok [.string q.sigils] := by
      cases q <;> simp_all [Opened.string, Opened.step, isVerbatim, sigils]
      all_goals split <;> simp_all
    rw [hwritten, List.singleton_append, Opened.read, hstep]
    rfl

/-- The quote at the end is the one that closes. -/
theorem closes_literal (q : Quoting) {value : List Char} (hvalue : q.isVerbatim ∨ '\n' ∉ value) :
    Opened.Closes [.string q.sigils] (value.flatMap q.written ++ ['"']) := by
  induction value with
  | nil => cases q <;> rfl
  | cons c value ih =>
    simp only [List.mem_cons, not_or] at hvalue
    rw [List.flatMap_cons, List.append_assoc, closes_written q (hvalue.imp_right fun h => Ne.symm h.1)]
    exact ih (hvalue.imp_right And.right)

/-! ### Three quotes -/

/-- How many quotes stand in front of each other character of a text and at its end, if `run` quotes stand in front of
the text. -/
def quoteRuns : Nat → List Char → List Nat
  | run, [] => [run]
  | run, c :: text => if c = '"' then quoteRuns (run + 1) text else run :: quoteRuns 0 text

/-- The last run is not shorter than `first` and the others are not longer. -/
def LastCloses (first : Nat) (runs : List Nat) : Prop :=
  (∀ run ∈ runs.dropLast, run ≤ first) ∧ ∃ last ∈ runs.getLast?, first ≤ last

/-- A string that begins with quotes, goes on behind them and ends with at least as many, and has no longer run between
them. -/
def EndsAsItBegins (value : String) : Prop :=
  match quoteRuns 0 value.toList with
  | [] => False
  | first :: others => LastCloses first others

theorem quoteRuns_ne_nil (run : Nat) (text : List Char) : quoteRuns run text ≠ [] := by
  fun_induction quoteRuns run text with
  | case1 | case3 => simp
  | case2 run text ih => exact ih

theorem quoteRuns_replicate (run further : Nat) (text : List Char) :
    quoteRuns run (List.replicate further '"' ++ text) = quoteRuns (run + further) text := by
  induction further generalizing run with
  | zero => rfl
  | succ further ih =>
    rw [List.replicate_succ, List.cons_append, quoteRuns, if_pos rfl, ih]
    congr 1
    omega

theorem lastCloses_cons {first run : Nat} {runs : List Nat} (hrun : run ≤ first) (hruns : runs ≠ []) :
    LastCloses first (run :: runs) ↔ LastCloses first runs := by
  obtain ⟨next, runs, rfl⟩ := List.exists_cons_of_ne_nil hruns
  simp [LastCloses, hrun]

/-- A run that is long enough and ends closes a raw string. -/
theorem closes_raw_last {quotes seen : Nat} {ahead : List Char} (h : quotes ≤ seen + 1 ∧ ahead.head? ≠ some '"') :
    Opened.Closes [.rawString quotes seen] ('"' :: ahead) ↔ ahead = [] := by
  have hstep : (Opened.rawString quotes seen).step '"' ahead = .ok [] := if_pos h
  rw [Opened.closes_cons_iff hstep, Opened.closes_iff, List.nil_append, Opened.read]
  exact and_iff_right rfl

theorem closes_raw_quote {quotes seen : Nat} {ahead : List Char} (h : ¬ (quotes ≤ seen + 1 ∧ ahead.head? ≠ some '"')) :
    Opened.Closes [.rawString quotes seen] ('"' :: ahead) ↔ Opened.Closes [.rawString quotes (seen + 1)] ahead := by
  have hstep : (Opened.rawString quotes seen).step '"' ahead = .ok [.rawString quotes (seen + 1)] := if_neg h
  exact Opened.closes_cons_iff hstep []

theorem closes_raw_other {quotes seen : Nat} {c : Char} {ahead : List Char} (hc : c ≠ '"') :
    Opened.Closes [.rawString quotes seen] (c :: ahead) ↔ Opened.Closes [.rawString quotes 0] ahead := by
  have hstep : (Opened.rawString quotes seen).step c ahead = .ok [.rawString quotes 0] := if_neg hc
  exact Opened.closes_cons_iff hstep []

section

variable {q : Quoting} (hverbatim : q.isVerbatim)

include hverbatim

theorem written_quote : q.written '"' = ['"', '"'] := by
  cases q <;> first | rfl | cases hverbatim

theorem written_cases (c : Char) : q.written c = [c] ∨ q.written c = [c, c] := by
  have hescaped : q.escaped = [] := if_pos hverbatim
  unfold written
  rw [hescaped, if_neg List.not_mem_nil]
  split
  · exact .inr rfl
  · exact .inl rfl

theorem head_literal (value : List Char) :
    (value.flatMap q.written ++ ['"']).head? ≠ some '"' ↔ ∃ c ∈ value.head?, c ≠ '"' := by
  cases value with
  | nil => simp
  | cons c value => rcases written_cases hverbatim c with h | h <;> simp [h]

/-- A raw string with `2 * first + 1` quotes meets runs of quotes that are written twice, and a quote more at the end.
`run` quotes of the string have just been read, and none of the runs so far was longer than `first`. -/
theorem closes_raw_iff {first run : Nat} {value : List Char} (hrun : (∃ c ∈ value.head?, c ≠ '"') → run ≤ first) :
    Opened.Closes [.rawString (2 * first + 1) (2 * run)] (value.flatMap q.written ++ ['"']) ↔
      LastCloses first (quoteRuns run value) := by
  induction value generalizing run with
  | nil =>
    have hlast : LastCloses first (quoteRuns run []) ↔ first ≤ run := by simp [quoteRuns, LastCloses]
    rw [List.flatMap_nil, List.nil_append, hlast]
    by_cases hlong : first ≤ run
    · rw [closes_raw_last ⟨by omega, by simp⟩]
      simp [hlong]
    · rw [closes_raw_quote (by omega), Opened.closes_iff]
      simp [Opened.read, hlong]
  | cons c value ih =>
    rw [List.flatMap_cons, List.append_assoc]
    by_cases hc : c = '"'
    · subst hc
      rw [written_quote hverbatim, List.cons_append, List.singleton_append, closes_raw_quote (by simp), quoteRuns,
        if_pos rfl]
      by_cases hends : first < run + 1 ∧ ∃ d ∈ value.head?, d ≠ '"'
      · -- The run is longer than `first` and ends in front of another character: the string is closed too early.
        obtain ⟨hlong, hother⟩ := hends
        rw [closes_raw_last ⟨by omega, (head_literal hverbatim value).mpr hother⟩]
        obtain ⟨d, hd, hother⟩ := hother
        cases value with
        | nil => cases hd
        | cons d' value =>
          cases hd
          rw [quoteRuns, if_neg hother]
          have hopen : ¬ LastCloses first ((run + 1) :: quoteRuns 0 value) := by
            intro h
            have hbound := h.1
            rw [List.dropLast_cons_of_ne_nil (quoteRuns_ne_nil 0 value)] at hbound
            have hshort := hbound (run + 1) (List.mem_cons_self ..)
            omega
          simp [hopen]
      · have hopen : ¬ (2 * first + 1 ≤ 2 * run + 1 + 1 ∧ (value.flatMap q.written ++ ['"']).head? ≠ some '"') := by
          rw [head_literal hverbatim]
          intro h
          exact hends ⟨by omega, h.2⟩
        rw [closes_raw_quote hopen]
        refine @ih (run + 1) fun hother => ?_
        by_contra hlong
        exact hends ⟨by omega, hother⟩
    · have hshort : run ≤ first := hrun ⟨c, rfl, hc⟩
      have hnext := @ih 0 fun _ => Nat.zero_le first
      rw [quoteRuns, if_neg hc, lastCloses_cons hshort (quoteRuns_ne_nil 0 value), ← hnext]
      rcases written_cases hverbatim c with h | h <;>
        simp only [h, List.cons_append, List.nil_append, closes_raw_other hc, Nat.mul_zero]

end

/-! ### Every string -/

theorem toList_literal (q : Quoting) (value : String) :
    (q.literal value).toList = q.sigils ++ '"' :: (value.toList.flatMap q.written ++ ['"']) :=
  String.toList_ofList

/-- Quotes stand behind the opening one only if they are written twice. -/
theorem head_written {q : Quoting} {c : Char} (hc : q.isVerbatim → c ≠ '"') :
    ∃ d rest, q.written c = d :: rest ∧ d ≠ '"' := by
  unfold written
  by_cases hescaped : c ∈ q.escaped
  · exact ⟨'\\', [c], if_pos hescaped, by decide⟩
  · have hquote : c ≠ '"' := by
      rintro rfl
      have hverbatim : ¬ q.isVerbatim := fun h => hc h rfl
      exact hescaped (by simp [escaped, hverbatim])
    rw [if_neg hescaped]
    split
    · exact ⟨c, [c], rfl, hquote⟩
    · exact ⟨c, [], rfl, hquote⟩

theorem quotes_literal_lt {q : Quoting} {value : List Char} (hvalue : q.isVerbatim → value.head? ≠ some '"') :
    (('"' :: (value.flatMap q.written ++ ['"'])).takeWhile (· == '"')).length < 3 := by
  cases value with
  | nil => simp
  | cons c value =>
    obtain ⟨d, rest, hwritten, hd⟩ := head_written (q := q) (c := c) fun h => by simpa using hvalue h
    simp [hwritten, hd]

theorem exists_replicate_quotes (text : List Char) :
    ∃ quotes rest, text = List.replicate quotes '"' ++ rest ∧ rest.head? ≠ some '"' := by
  induction text with
  | nil => exact ⟨0, [], rfl, by simp⟩
  | cons c text ih =>
    by_cases hc : c = '"'
    · obtain ⟨quotes, rest, rfl, hrest⟩ := ih
      exact ⟨quotes + 1, rest, by rw [hc]; rfl, hrest⟩
    · exact ⟨0, c :: text, rfl, by simpa using hc⟩

theorem flatMap_written_replicate {q : Quoting} (hverbatim : q.isVerbatim) (quotes : Nat) :
    (List.replicate quotes '"').flatMap q.written = List.replicate (2 * quotes) '"' := by
  induction quotes with
  | zero => rfl
  | succ quotes ih =>
    rw [List.replicate_succ, List.flatMap_cons, ih, written_quote hverbatim]
    rfl

/-- Behind both marks, the quotes at the beginning of a string open a raw string with the opening quote. -/
theorem isLiteral_literal_iff_of_raw {q : Quoting} {value : String} (hverbatim : q.isVerbatim)
    (hinterpolated : q.isInterpolated) (hhead : value.toList.head? = some '"') :
    IsLiteral (q.literal value) ↔ EndsAsItBegins value := by
  have hsigils : q.sigils ≠ ['@'] := by
    intro h
    rw [isInterpolated, h] at hinterpolated
    cases hinterpolated
  have htext := toList_literal q value
  obtain ⟨first, rest, hvalue, hrest⟩ := exists_replicate_quotes value.toList
  have hpositive : 0 < first := by
    by_contra hzero
    obtain rfl : first = 0 := by omega
    rw [hvalue] at hhead
    exact hrest hhead
  have hruns := quoteRuns_replicate 0 first rest
  rw [← hvalue, Nat.zero_add] at hruns
  rw [hvalue, List.flatMap_append, flatMap_written_replicate hverbatim] at htext
  cases rest with
  | nil =>
    -- There are quotes only: all of them open the raw string, and nothing closes it.
    have hrun : List.replicate (2 * first + 2) '"' = '"' :: (List.replicate (2 * first) '"' ++ ['"']) := by
      rw [List.replicate_succ, List.replicate_succ']
    have hquotes : (q.literal value).toList = q.sigils ++ (List.replicate (2 * first + 2) '"' ++ []) := by
      rw [htext, hrun]
      simp
    rw [isLiteral_iff_of_raw q.opensString hsigils (by omega) (by simp) hquotes, Opened.closes_iff, EndsAsItBegins,
      hruns]
    simp [Opened.read, quoteRuns, LastCloses]
  | cons c rest =>
    have hc : c ≠ '"' := by simpa using hrest
    have hquotes : (q.literal value).toList =
        q.sigils ++ (List.replicate (2 * first + 1) '"' ++ ((c :: rest).flatMap q.written ++ ['"'])) := by
      rw [htext]
      simp [List.replicate_succ]
    have hother : ((c :: rest).flatMap q.written ++ ['"']).head? ≠ some '"' :=
      (head_literal hverbatim (c :: rest)).mpr ⟨c, rfl, hc⟩
    have hraw := @closes_raw_iff q hverbatim first 0 (c :: rest) fun _ => Nat.zero_le first
    rw [Nat.mul_zero, quoteRuns, if_neg hc, lastCloses_cons (Nat.zero_le first) (quoteRuns_ne_nil 0 rest)] at hraw
    rw [isLiteral_iff_of_raw q.opensString hsigils (by omega) hother hquotes, hraw, EndsAsItBegins, hruns, quoteRuns,
      if_neg hc]

/-- A string is read back from its literal, unless it stands behind both marks, begins with a quote and does not end
as it begins. -/
theorem isLiteral_literal_iff (q : Quoting) (value : String) (hvalue : q.isVerbatim ∨ '\n' ∉ value.toList) :
    IsLiteral (q.literal value) ↔
      (q.isVerbatim → q.isInterpolated → value.toList.head? = some '"' → EndsAsItBegins value) := by
  by_cases hraw : q.isVerbatim ∧ q.isInterpolated ∧ value.toList.head? = some '"'
  · obtain ⟨hverbatim, hinterpolated, hhead⟩ := hraw
    rw [isLiteral_literal_iff_of_raw hverbatim hinterpolated hhead]
    exact ⟨fun h _ _ _ => h, fun h => h hverbatim hinterpolated hhead⟩
  · have hquotes : q.sigils = ['@'] ∨
        ¬ 3 ≤ (('"' :: (value.toList.flatMap q.written ++ ['"'])).takeWhile (· == '"')).length := by
      by_cases hsigils : q.sigils = ['@']
      · exact .inl hsigils
      · have hinterpolated : q.isVerbatim → q.isInterpolated := by
          cases q <;> first | exact absurd rfl hsigils | decide
        refine .inr (not_le.mpr (quotes_literal_lt fun hverbatim hhead => ?_))
        exact hraw ⟨hverbatim, hinterpolated hverbatim, hhead⟩
    rw [isLiteral_iff_of_one_quote q.opensString hquotes (toList_literal q value)]
    exact iff_of_true (q.closes_literal hvalue) fun hverbatim hinterpolated hhead =>
      absurd ⟨hverbatim, hinterpolated, hhead⟩ hraw

/-- A string in quotes of its own with a brace and a backslash in them. -/
theorem isLiteral_literal_in_quotes :
    let value := "\"\x7b\\\""
    (interpolatedVerbatim.isVerbatim ∨ '\n' ∉ value.toList) ∧ IsLiteral (interpolatedVerbatim.literal value) := by
  intro value
  have hvalue : interpolatedVerbatim.isVerbatim ∨ '\n' ∉ value.toList := .inl rfl
  refine ⟨hvalue, (isLiteral_literal_iff interpolatedVerbatim value hvalue).mpr fun _ _ _ => ?_⟩
  have hruns : quoteRuns 0 value.toList = [1, 0, 1] := by decide
  rw [EndsAsItBegins, hruns]
  exact ⟨by decide, 1, rfl, le_rfl⟩

/-- A quote alone is not read back when it stands behind both marks. -/
theorem not_isLiteral_literal_quote :
    ¬ IsLiteral (interpolatedVerbatim.literal "\"") ∧ ¬ IsLiteral (verbatimInterpolated.literal "\"") := by
  decide +kernel

end Quoting

end CSharpStyle
