/-
# Texts survive as bytes

Decoding the bytes of a text gives the text back: what is written to a file can be read again, and
it is the text that was meant.  The proof goes character by character.  A lead byte announces as
many continuation bytes as follow it; these lie between the bounds that it sets, because the code
point is neither too small for its length, nor a surrogate, nor beyond the last one; and each of
them adds six bits, which put the code point together again.
-/

import Dragonstone.Text.Utf8

namespace Dragonstone.Utf8

/-- A continuation byte, which carries the last six bits of a number. -/
def continuationByte (n : Nat) : UInt8 :=
  .ofNat (0x80 + n % 64)

theorem toNat_continuationByte (n : Nat) : (continuationByte n).toNat = 0x80 + n % 64 := by
  rw [continuationByte, UInt8.toNat_ofNat']
  omega

/-- The lead byte and the continuation bytes of a character, by the size of its code point. -/
theorem encodeChar_eq (c : Char) :
    encodeChar c =
      if c.toNat < 0x80 then [.ofNat c.toNat]
      else if c.toNat < 0x800 then [.ofNat (0xc0 + c.toNat / 64), continuationByte c.toNat]
      else if c.toNat < 0x10000 then
        [.ofNat (0xe0 + c.toNat / 4096), continuationByte (c.toNat / 64), continuationByte c.toNat]
      else
        [.ofNat (0xf0 + c.toNat / 262144), continuationByte (c.toNat / 4096),
          continuationByte (c.toNat / 64), continuationByte c.toNat] := by
  simp only [encodeChar, continuationByte, Nat.shiftRight_eq_div_pow, Nat.reducePow, Nat.div_one]

/-! ### Lead bytes -/

theorem ofByte?_one {n : Nat} (small : n < 0x80) :
    Lead.ofByte? (.ofNat n) = some { following := 0, bits := n } := by
  have value : (UInt8.ofNat n).toNat = n := by rw [UInt8.toNat_ofNat']; omega
  simp only [Lead.ofByte?, value, if_pos small]

theorem ofByte?_two {k : Nat} (least : 2 ≤ k) (most : k < 32) :
    Lead.ofByte? (.ofNat (0xc0 + k)) = some { following := 1, bits := k } := by
  have value : (UInt8.ofNat (0xc0 + k)).toNat = 0xc0 + k := by rw [UInt8.toNat_ofNat']; omega
  simp only [Lead.ofByte?, value]
  rw [if_neg (by omega), if_neg (by omega), if_pos (by omega), Nat.add_sub_cancel_left]

theorem ofByte?_three {k : Nat} (most : k < 16) :
    Lead.ofByte? (.ofNat (0xe0 + k)) =
      some { following := 2, bits := k, lowest := if k = 0 then 0xa0 else 0x80,
             highest := if k = 13 then 0x9f else 0xbf } := by
  have value : (UInt8.ofNat (0xe0 + k)).toNat = 0xe0 + k := by rw [UInt8.toNat_ofNat']; omega
  have first : 0xe0 + k = 0xe0 ↔ k = 0 := by omega
  have surrogates : 0xe0 + k = 0xed ↔ k = 13 := by omega
  simp only [Lead.ofByte?, value, first, surrogates]
  rw [if_neg (by omega), if_neg (by omega), if_neg (by omega), if_pos (by omega),
    Nat.add_sub_cancel_left]

theorem ofByte?_four {k : Nat} (most : k < 5) :
    Lead.ofByte? (.ofNat (0xf0 + k)) =
      some { following := 3, bits := k, lowest := if k = 0 then 0x90 else 0x80,
             highest := if k = 4 then 0x8f else 0xbf } := by
  have value : (UInt8.ofNat (0xf0 + k)).toNat = 0xf0 + k := by rw [UInt8.toNat_ofNat']; omega
  have first : 0xf0 + k = 0xf0 ↔ k = 0 := by omega
  have last : 0xf0 + k = 0xf4 ↔ k = 4 := by omega
  simp only [Lead.ofByte?, value, first, last]
  rw [if_neg (by omega), if_neg (by omega), if_neg (by omega), if_neg (by omega),
    if_pos (by omega), Nat.add_sub_cancel_left]

/-! ### Reading a character back -/

/-- A continuation byte within the bounds adds its six bits. -/
theorem continuation_cons {wanted lowest highest bits read n : Nat} {rest : List UInt8}
    (low : lowest ≤ 0x80 + n % 64) (high : 0x80 + n % 64 ≤ highest) :
    continuation (wanted + 1) lowest highest bits read (continuationByte n :: rest) =
      continuation wanted 0x80 0xbf (bits * 64 + n % 64) (read + 1) rest := by
  have six : (0x80 + n % 64) % 64 = n % 64 := by omega
  rw [continuation, toNat_continuationByte, six]
  rw [if_pos (by simpa using ⟨low, high⟩)]

/-- What a character becomes is read back as this character, whatever follows. -/
theorem exists_decodeChar (c : Char) :
    ∃ b more, encodeChar c = b :: more ∧ ∀ rest, decodeChar b (more ++ rest) = .ok (c, rest) := by
  have valid : c.toNat < 0xd800 ∨ 0xdfff < c.toNat ∧ c.toNat < 0x110000 := c.valid
  have char {n : Nat} (same : n = c.toNat) : Char.ofNat n = c := by rw [same, Char.ofNat_toNat]
  rw [encodeChar_eq]
  by_cases one : c.toNat < 0x80
  · rw [if_pos one]
    refine ⟨_, _, rfl, fun rest => ?_⟩
    simp only [decodeChar, ofByte?_one one, continuation, List.nil_append, char]
  by_cases two : c.toNat < 0x800
  · rw [if_neg one, if_pos two]
    refine ⟨_, _, rfl, fun rest => ?_⟩
    simp only [decodeChar, ofByte?_two (k := c.toNat / 64) (by omega) (by omega), List.cons_append]
    rw [continuation_cons (by omega) (by omega)]
    simp only [continuation, List.nil_append,
      char (n := c.toNat / 64 * 64 + c.toNat % 64) (by omega)]
  by_cases three : c.toNat < 0x10000
  · rw [if_neg one, if_neg two, if_pos three]
    refine ⟨_, _, rfl, fun rest => ?_⟩
    simp only [decodeChar, ofByte?_three (k := c.toNat / 4096) (by omega), List.cons_append]
    rw [continuation_cons (by split <;> omega) (by split <;> omega),
      continuation_cons (by omega) (by omega)]
    simp only [continuation, List.nil_append]
    rw [char (by omega)]
  · rw [if_neg one, if_neg two, if_neg three]
    refine ⟨_, _, rfl, fun rest => ?_⟩
    simp only [decodeChar, ofByte?_four (k := c.toNat / 262144) (by omega), List.cons_append]
    rw [continuation_cons (by split <;> omega) (by split <;> omega),
      continuation_cons (by omega) (by omega), continuation_cons (by omega) (by omega)]
    simp only [continuation, List.nil_append]
    rw [char (by omega)]

/-- The bytes of a text are the bytes of this text. -/
theorem decodeFrom_encode (start : Nat) (s : Text) : decodeFrom start (encode s) = .ok s := by
  induction s generalizing start with
  | nil => rw [encode, List.flatMap_nil, decodeFrom]
  | cons c s ih =>
      obtain ⟨b, more, bytes, read⟩ := exists_decodeChar c
      have front : encode (c :: s) = b :: (more ++ encode s) := by
        rw [encode, List.flatMap_cons, bytes]
        rfl
      rw [front, decodeFrom]
      split
      · next failed => rw [read] at failed; cases failed
      · next found =>
        rw [read] at found
        cases found
        rw [ih]
        rfl

theorem decode_encode (s : Text) : decode (encode s) = .ok s :=
  decodeFrom_encode 0 s

end Dragonstone.Utf8
