import CSharpStyle.Text.Utf8
import Mathlib.Tactic.SplitIfs

/-!
# Texts as bytes

Every text is written as the bytes of its characters, one behind the other, and read back from them.

* `ne_of_mem_encode`: the byte `0xFF` is in no text.
* `characters_flatMap_encodeChar`: the bytes of characters are read as these characters.
* `decode?_encode`: what is written for a text is read as that text.
-/

namespace CSharpStyle.Utf8

/-! ### Bytes of a text -/

private theorem toList_loop (bytes : ByteArray) (i : Nat) (read : List UInt8) :
    ByteArray.toList.loop bytes i read = read.reverse ++ bytes.data.toList.drop i := by
  fun_induction ByteArray.toList.loop bytes i read with
  | case1 i read hi ih =>
    have hi' : i < bytes.data.toList.length := by simpa using hi
    have hget : bytes.get! i = bytes.data.toList[i] := by
      rw [ByteArray.get!, getElem!_pos bytes.data i hi, Array.getElem_toList]
    rw [ih, List.reverse_cons, List.append_assoc, List.drop_eq_getElem_cons hi', hget, List.singleton_append]
  | case2 i read hi =>
    rw [List.drop_of_length_le (by simpa using hi), List.append_nil]

theorem encode_eq_flatMap (text : String) : encode text = text.toList.flatMap String.utf8EncodeChar := by
  have hbytes : text.toUTF8 = (text.toList.flatMap String.utf8EncodeChar).toByteArray :=
    String.utf8Encode_toList.symm
  rw [encode, ByteArray.toList, toList_loop, hbytes, List.data_toByteArray]
  rfl

/-- Texts are made of bytes below `0xF8`. -/
theorem ne_of_mem_encode {text : String} {b : UInt8} (h : b ∈ encode text) : b ≠ 0xFF := by
  rw [encode_eq_flatMap] at h
  obtain ⟨c, -, hb⟩ := List.mem_flatMap.mp h
  have hlt : b.toNat < 0xF8 := by
    dsimp only [String.utf8EncodeChar] at hb
    split_ifs at hb <;> simp only [List.mem_cons, List.not_mem_nil, or_false] at hb
    · rw [hb, UInt8.toNat_ofNat']
      omega
    · rcases hb with rfl | rfl <;> rw [UInt8.toNat_ofNat'] <;> omega
    · rcases hb with rfl | rfl | rfl <;> rw [UInt8.toNat_ofNat'] <;> omega
    · rcases hb with rfl | rfl | rfl | rfl <;> rw [UInt8.toNat_ofNat'] <;> omega
  rintro rfl
  exact absurd hlt (by decide)

/-! ### Reading what is written -/

/-- A character is read if all bytes that its first one announces follow. -/
private theorem first_eq {b : UInt8} {rest tail : List UInt8} {n : Nat} {low high : UInt8} {c : Char}
    (hb : tailOf? b = some (n, low, high)) (htail : continuation n low high rest = tail) (hlength : tail.length = n)
    (hcode : tail.foldl (fun code t => code * 0x40 + t.toNat % 0x40) (leadBits n b) = c.toNat) :
    first b rest = (some c, n) := by
  simp only [first, hb, htail, hlength, if_true, hcode, Char.ofNat_toNat]

private theorem continuation_cons {n : Nat} {low high t : UInt8} (hlow : low.toNat ≤ t.toNat)
    (hhigh : t.toNat ≤ high.toNat) (rest : List UInt8) :
    continuation (n + 1) low high (t :: rest) = t :: continuation n 0x80 0xBF rest := by
  rw [continuation, if_pos]
  rw [Bool.and_eq_true, decide_eq_true_eq, decide_eq_true_eq, UInt8.le_iff_toNat_le, UInt8.le_iff_toNat_le]
  exact ⟨hlow, hhigh⟩

private theorem tailOf?_one {b : UInt8} (h : 0xC2 ≤ b.toNat) (h' : b.toNat < 0xE0) :
    tailOf? b = some (1, 0x80, 0xBF) := by
  simp only [tailOf?, UInt8.lt_iff_toNat_lt, UInt8.reduceToNat]
  rw [if_neg (by omega), if_neg (by omega), if_pos (by omega)]

/-- Of two bytes that follow, the first has fewer values behind `0xE0`, and behind `0xED` because of surrogates. -/
private theorem tailOf?_two {b : UInt8} (h : 0xE0 ≤ b.toNat) (h' : b.toNat < 0xF0) :
    ∃ low high, tailOf? b = some (2, low, high) ∧
      ∀ t, 0x80 ≤ t → t ≤ 0xBF → (b.toNat = 0xE0 → 0xA0 ≤ t) → (b.toNat = 0xED → t ≤ 0x9F) →
        low.toNat ≤ t ∧ t ≤ high.toNat := by
  simp only [tailOf?, UInt8.lt_iff_toNat_lt, ← UInt8.toNat_inj, UInt8.reduceToNat]
  rw [if_neg (by omega), if_neg (by omega), if_neg (by omega)]
  split_ifs with h1 h2
  · exact ⟨_, _, rfl, fun t h h' hE0 _ => ⟨hE0 h1, h'⟩⟩
  · exact ⟨_, _, rfl, fun t h h' _ hED => ⟨h, hED h2⟩⟩
  · exact ⟨_, _, rfl, fun t h h' _ _ => ⟨h, h'⟩⟩

/-- Of three bytes that follow, the first has fewer values behind `0xF0` and `0xF4`, which end the range. -/
private theorem tailOf?_three {b : UInt8} (h : 0xF0 ≤ b.toNat) (h' : b.toNat ≤ 0xF4) :
    ∃ low high, tailOf? b = some (3, low, high) ∧
      ∀ t, 0x80 ≤ t → t ≤ 0xBF → (b.toNat = 0xF0 → 0x90 ≤ t) → (b.toNat = 0xF4 → t ≤ 0x8F) →
        low.toNat ≤ t ∧ t ≤ high.toNat := by
  simp only [tailOf?, UInt8.lt_iff_toNat_lt, ← UInt8.toNat_inj, UInt8.reduceToNat]
  rw [if_neg (by omega), if_neg (by omega), if_neg (by omega), if_neg (by omega), if_neg (by omega),
    if_neg (by omega)]
  split_ifs with h1 h2 h3
  · exact ⟨_, _, rfl, fun t h h' hF0 _ => ⟨hF0 h1, h'⟩⟩
  · exact ⟨_, _, rfl, fun t h h' _ _ => ⟨h, h'⟩⟩
  · exact ⟨_, _, rfl, fun t h h' _ hF4 => ⟨h, hF4 h3⟩⟩
  · omega

private theorem continuation_next {n : Nat} {t : UInt8} (h : 0x80 ≤ t.toNat) (h' : t.toNat ≤ 0xBF)
    (rest : List UInt8) : continuation (n + 1) 0x80 0xBF (t :: rest) = t :: continuation n 0x80 0xBF rest :=
  continuation_cons (by exact h) (by exact h') rest

private theorem continuation_last {t : UInt8} (h : 0x80 ≤ t.toNat) (h' : t.toNat ≤ 0xBF) (rest : List UInt8) :
    continuation 1 0x80 0xBF (t :: rest) = [t] := by
  rw [continuation_next h h']
  cases rest <;> rfl

private theorem first_encodeChar (c : Char) (rest : List UInt8) :
    ∃ b tail, String.utf8EncodeChar c = b :: tail ∧ first b (tail ++ rest) = (some c, tail.length) := by
  have hvalid : c.val.toNat < 0xD800 ∨ 0xDFFF < c.val.toNat ∧ c.val.toNat < 0x110000 := c.valid
  have hbyte {k : Nat} (hk : k < 0x100) : (UInt8.ofNat k).toNat = k := UInt8.toNat_ofNat_of_lt' hk
  have hlast := hbyte (k := c.val.toNat % 64 + 128) (by omega)
  have hmiddle := hbyte (k := c.val.toNat / 64 % 64 + 128) (by omega)
  dsimp only [String.utf8EncodeChar]
  split_ifs
  · have hb := hbyte (k := c.val.toNat) (by omega)
    have htail : tailOf? (UInt8.ofNat c.val.toNat) = some (0, 0, 0) := by
      rw [tailOf?, if_pos]
      rw [UInt8.lt_iff_toNat_lt, hb]
      exact Nat.lt_succ_of_le ‹_›
    refine ⟨_, _, rfl, first_eq htail ?_ rfl hb⟩
    cases rest <;> rfl
  · have hb := hbyte (k := c.val.toNat / 64 % 32 + 192) (by omega)
    refine ⟨_, _, rfl, first_eq (tailOf?_one (by omega) (by omega)) ?_ rfl ?_⟩
    · exact continuation_last (by omega) (by omega) rest
    · change _ % 0x20 * 0x40 + _ % 0x40 = c.val.toNat
      omega
  · have hb := hbyte (k := c.val.toNat / 4096 % 16 + 224) (by omega)
    obtain ⟨low, high, htail, hrange⟩ :=
      tailOf?_two (b := UInt8.ofNat (c.val.toNat / 4096 % 16 + 224)) (by omega) (by omega)
    obtain ⟨hlow, hhigh⟩ := hrange (c.val.toNat / 64 % 64 + 128) (by omega) (by omega) (by omega) (by omega)
    refine ⟨_, _, rfl, first_eq htail ?_ rfl ?_⟩
    · refine (continuation_cons ?_ ?_ _).trans (congrArg _ (continuation_last ?_ ?_ rest)) <;> omega
    · change (_ % 0x10 * 0x40 + _ % 0x40) * 0x40 + _ % 0x40 = c.val.toNat
      omega
  · have hb := hbyte (k := c.val.toNat / 262144 % 8 + 240) (by omega)
    have ht := hbyte (k := c.val.toNat / 4096 % 64 + 128) (by omega)
    obtain ⟨low, high, htail, hrange⟩ :=
      tailOf?_three (b := UInt8.ofNat (c.val.toNat / 262144 % 8 + 240)) (by omega) (by omega)
    obtain ⟨hlow, hhigh⟩ := hrange (c.val.toNat / 4096 % 64 + 128) (by omega) (by omega) (by omega) (by omega)
    refine ⟨_, _, rfl, first_eq htail ?_ rfl ?_⟩
    · refine (continuation_cons ?_ ?_ _).trans (congrArg _ ?_)
      · omega
      · omega
      · refine (continuation_next ?_ ?_ _).trans (congrArg _ (continuation_last ?_ ?_ rest)) <;> omega
    · change ((_ % 0x08 * 0x40 + _ % 0x40) * 0x40 + _ % 0x40) * 0x40 + _ % 0x40 = c.val.toNat
      omega

private theorem charactersFrom_length (tail rest : List UInt8) :
    charactersFrom tail.length (tail ++ rest) = charactersFrom 0 rest := by
  induction tail with
  | nil => rfl
  | cons b tail ih => exact ih

theorem characters_flatMap_encodeChar (chars : List Char) :
    characters (chars.flatMap String.utf8EncodeChar) = chars.map some := by
  induction chars with
  | nil => rfl
  | cons c chars ih =>
    obtain ⟨b, tail, htext, hfirst⟩ := first_encodeChar c (chars.flatMap String.utf8EncodeChar)
    rw [List.flatMap_cons, htext, characters, List.cons_append, charactersFrom, hfirst, List.map_cons, ← ih]
    exact congrArg (some c :: ·) (charactersFrom_length ..)

/-- What is written for a text is read as that text. -/
theorem decode?_encode (text : String) : decode? (encode text) = some text := by
  have hread (chars : List Char) : (chars.map some).mapM id = some chars := by
    induction chars with
    | nil => rfl
    | cons c chars ih =>
      rw [List.map_cons, List.mapM_cons, ih]
      rfl
  rw [decode?, encode_eq_flatMap, characters_flatMap_encodeChar, hread, Option.map_some, String.ofList_toList]

theorem encode_injective {s t : String} (h : encode s = encode t) : s = t :=
  Option.some.inj ((decode?_encode s).symm.trans ((congrArg decode? h).trans (decode?_encode t)))

end CSharpStyle.Utf8
