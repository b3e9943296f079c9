/-
# Texts as bytes

The encoding of texts in files.  A character takes one to four bytes: a lead byte, which tells how
many follow and between which bounds the second one lies, and continuation bytes.  The bounds rule
out encodings that are too long, surrogates, and numbers beyond the last code point.  Decoding stops
at the first sequence that is none of these and says which bytes it had read.
-/

import Dragonstone.Text

namespace Dragonstone.Utf8

def encodeChar (c : Char) : List UInt8 :=
  let n := c.toNat
  let low (k : Nat) : UInt8 := .ofNat (0x80 + (n >>> k) % 64)
  if n < 0x80 then [.ofNat n]
  else if n < 0x800 then [.ofNat (0xc0 + n / 64), low 0]
  else if n < 0x10000 then [.ofNat (0xe0 + n / 4096), low 6, low 0]
  else [.ofNat (0xf0 + n / 262144), low 12, low 6, low 0]

def encode (s : Text) : List UInt8 :=
  s.flatMap encodeChar

inductive Fault where
  | startByte
  | continuationByte
  | endOfData
  deriving DecidableEq, Repr

def Fault.message : Fault → String
  | .startByte => "invalid start byte"
  | .continuationByte => "invalid continuation byte"
  | .endOfData => "unexpected end of data"

/-- The first bytes that are no character: their place, their number, and the byte they start
with. -/
structure Error where
  start : Nat
  length : Nat
  lead : UInt8
  fault : Fault
  deriving DecidableEq, Repr

/-- The two hexadecimal digits of a byte. -/
def hexByte (b : UInt8) : String :=
  String.ofList [Nat.digitChar (b.toNat / 16), Nat.digitChar (b.toNat % 16)]

/-- The wording of an error, for one byte or for several. -/
def Error.message (e : Error) : String :=
  let place :=
    if e.length = 1 then "byte 0x" ++ hexByte e.lead ++ " in position " ++ toString e.start
    else "bytes in position " ++ toString e.start ++ "-" ++ toString (e.start + e.length - 1)
  "'utf-8' codec can't decode " ++ place ++ ": " ++ e.fault.message

/-- What a lead byte announces: how many bytes follow, the bounds of the second byte, and the bits
that it contributes. -/
structure Lead where
  following : Nat
  lowest : Nat := 0x80
  highest : Nat := 0xbf
  bits : Nat
  deriving DecidableEq, Repr

/-- The announcement of a lead byte, if it is one. -/
def Lead.ofByte? (b : UInt8) : Option Lead :=
  let n := b.toNat
  if n < 0x80 then some { following := 0, bits := n }
  else if n < 0xc2 then none
  else if n < 0xe0 then some { following := 1, bits := n - 0xc0 }
  else if n < 0xf0 then
    some { following := 2, bits := n - 0xe0,
           lowest := if n = 0xe0 then 0xa0 else 0x80,
           highest := if n = 0xed then 0x9f else 0xbf }
  else if n < 0xf5 then
    some { following := 3, bits := n - 0xf0,
           lowest := if n = 0xf0 then 0x90 else 0x80,
           highest := if n = 0xf4 then 0x8f else 0xbf }
  else none

/-- Read the bytes after a lead byte.  Gives the code point, or the fault with the number of bytes
that were read before it. -/
def continuation (wanted lowest highest bits read : Nat) :
    List UInt8 → Except (Fault × Nat) (Nat × List UInt8)
  | rest =>
    match wanted, rest with
    | 0, rest => .ok (bits, rest)
    | _ + 1, [] => .error (.endOfData, read)
    | wanted + 1, b :: rest =>
      if lowest ≤ b.toNat && b.toNat ≤ highest then
        continuation wanted 0x80 0xbf (bits * 64 + b.toNat % 64) (read + 1) rest
      else .error (.continuationByte, read)

/-- A character at the front of the bytes, and the bytes after it. -/
def decodeChar (b : UInt8) (rest : List UInt8) : Except (Fault × Nat) (Char × List UInt8) :=
  match Lead.ofByte? b with
  | none => .error (.startByte, 1)
  | some lead =>
    match continuation lead.following lead.lowest lead.highest lead.bits 1 rest with
    | .ok (n, after) => .ok (Char.ofNat n, after)
    | .error e => .error e

/-- Continuation bytes only shorten what is left. -/
theorem length_le_of_continuation {wanted lowest highest bits read : Nat} {s : List UInt8}
    {n : Nat} {after : List UInt8}
    (h : continuation wanted lowest highest bits read s = .ok (n, after)) :
    after.length ≤ s.length := by
  induction wanted generalizing lowest highest bits read s with
  | zero =>
    simp only [continuation, Except.ok.injEq, Prod.mk.injEq] at h
    exact Nat.le_of_eq (congrArg List.length h.2.symm)
  | succ wanted ih =>
    cases s with
    | nil => simp [continuation] at h
    | cons b rest =>
      rw [continuation] at h
      split at h
      · exact Nat.le_succ_of_le (ih h)
      · cases h

/-- A character leaves no more bytes than follow its lead byte. -/
theorem length_le_of_decodeChar {b : UInt8} {rest after : List UInt8} {c : Char}
    (h : decodeChar b rest = .ok (c, after)) : after.length ≤ rest.length := by
  simp only [decodeChar] at h
  split at h
  · cases h
  · split at h
    · next read =>
      simp only [Except.ok.injEq, Prod.mk.injEq] at h
      rw [← h.2]
      exact length_le_of_continuation read
    · cases h

/-- The text of bytes that begin at place `start`. -/
def decodeFrom (start : Nat) (s : List UInt8) : Except Error Text :=
  match s with
  | [] => .ok []
  | b :: rest =>
    match _read : decodeChar b rest with
    | .error (fault, length) => .error ⟨start, length, b, fault⟩
    | .ok (c, after) => (decodeFrom (start + (s.length - after.length)) after).map (c :: ·)
termination_by s.length
decreasing_by exact Nat.lt_succ_of_le (length_le_of_decodeChar _read)

def decode (s : List UInt8) : Except Error Text :=
  decodeFrom 0 s

end Dragonstone.Utf8
