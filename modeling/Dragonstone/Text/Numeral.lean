/-
# Reading integers

An integer may have spaces around it, a sign, zeros in front, and single underscores between its
digits, which may be of any script.  Of the ASCII characters only blanks count as spaces here.  Numbers
of more than 4300 digits are refused.
-/

import Dragonstone.Text.DecimalDigit

namespace Dragonstone

/-- The values of the digits, with single underscores between them dropped. -/
def digitValues? : Text → Option (List Nat)
  | [] => none
  | [c] => (decimalValue? c).map fun v => [v]
  | c :: '_' :: rest =>
    match decimalValue? c, digitValues? rest with
    | some v, some vs => some (v :: vs)
    | _, _ => none
  | c :: rest =>
    match decimalValue? c, digitValues? rest with
    | some v, some vs => some (v :: vs)
    | _, _ => none

/-- The number that digits stand for. -/
def ofDigitValues (vs : List Nat) : Nat :=
  vs.foldl (fun n v => 10 * n + v) 0

/-- The natural number that a text of digits stands for. -/
def readNat? (s : Text) : Option Nat :=
  match digitValues? s with
  | some vs => if vs.length ≤ 4300 then some (ofDigitValues vs) else none
  | none => none

/-- A space around a number: a blank, or a space character outside ASCII. -/
def isNumeralSpace (c : Char) : Bool :=
  isBlank c || (0x7f < c.toNat && isSpace c)

def trimSpaces (s : Text) : Text :=
  ((s.dropWhile isNumeralSpace).reverse.dropWhile isNumeralSpace).reverse

def readInt? (s : Text) : Option Int :=
  match trimSpaces s with
  | '-' :: digits => (readNat? digits).map fun n => -Int.ofNat n
  | '+' :: digits => (readNat? digits).map Int.ofNat
  | digits => (readNat? digits).map Int.ofNat

end Dragonstone
