/-
# Shortest decimals

A binary floating-point number stands for every real that rounds to it.  Its shortest decimal is the
one with the fewest digits among those reals, and of several the nearest to the number.  The search
goes through the grids of one, two, up to seventeen significant digits; on each grid only the two
neighbours of the number can be hits.  All comparisons are exact.
-/

namespace Dragonstone.Decimal

/-- A positive number `mantissa * 2 ^ exponent` of a binary format. -/
structure Binary where
  mantissa : Nat
  exponent : Int
  /-- The next smaller number is only half as far away as the next larger one. -/
  closeBelow : Bool
  deriving DecidableEq, Repr

structure Value where
  digits : Nat
  exponent : Int
  deriving DecidableEq, Repr

/-- Numerator and denominator of `m * 2 ^ q / 10 ^ e`. -/
def ratio (m : Nat) (q e : Int) : Nat × Nat :=
  (m * Nat.pow 2 q.toNat * Nat.pow 10 (-e).toNat, Nat.pow 2 (-q).toNat * Nat.pow 10 e.toNat)

/-- `d * 10 ^ e` rounds to the number.  The ends of the interval belong to it if the mantissa is
even. -/
def Binary.covers (b : Binary) (d : Nat) (e : Int) : Bool :=
  let (low, den) := ratio (4 * b.mantissa - (if b.closeBelow then 1 else 2)) (b.exponent - 2) e
  let (high, _) := ratio (4 * b.mantissa + 2) (b.exponent - 2) e
  if b.mantissa % 2 == 0 then low ≤ d * den && d * den ≤ high
  else low < d * den && d * den < high

/-- How many digits the number has before the point; negative for leading zeros after it. -/
def Binary.magnitude (b : Binary) : Int :=
  let bits : Int := b.mantissa.log2 + b.exponent
  let guess := (bits * 30103).fdiv 100000 + 1
  let (num, den) := ratio b.mantissa b.exponent guess
  if den ≤ num then guess + 1 else guess

/-- The better of the number's two neighbours on a grid, if one rounds to the number. -/
def Binary.hit? (b : Binary) (e : Int) : Option Value :=
  let (num, den) := ratio b.mantissa b.exponent e
  let below := num / den
  let rest := num % den
  let preferAbove := den < 2 * rest || (den == 2 * rest && below % 2 == 1)
  let order := if preferAbove then [below + 1, below] else [below, below + 1]
  (order.find? fun d => 0 < d && b.covers d e).map fun d => ⟨d, e⟩

/-- The shortest decimal that rounds to the number. -/
def Binary.shortest (b : Binary) : Value :=
  let top := b.magnitude
  ((List.range 17).findSome? fun (n : Nat) => b.hit? (top - (n + 1))).getD ⟨b.mantissa, 0⟩

/-- The positive number with the given bits of a double. -/
def Binary.ofBits (bits : Nat) : Binary :=
  let fraction : Nat := bits % Nat.pow 2 52
  let exponent : Nat := bits / Nat.pow 2 52 % Nat.pow 2 11
  if exponent = 0 then ⟨fraction, -1074, false⟩
  else ⟨Nat.pow 2 52 + fraction, Int.ofNat exponent - 1075, fraction == 0 && 1 < exponent⟩

/-- Digits of a decimal without the zeros at their end, and the decimal point's place counted from
the first digit. -/
def Value.significant (d : Value) : List Char × Int :=
  let digits := Nat.toDigits 10 d.digits
  let kept := (digits.reverse.dropWhile (· == '0')).reverse
  (kept, digits.length + d.exponent)

/-- How numbers are written: positional from `10 ^ (-4)` up to `10 ^ 16`, always with a point, and
otherwise with a signed exponent of at least two digits. -/
def Value.text (d : Value) : List Char :=
  let (digits, point) := d.significant
  if -4 < point && point ≤ 16 then
    if point ≤ 0 then '0' :: '.' :: List.replicate (-point).toNat '0' ++ digits
    else
      let whole := digits.take point.toNat ++ List.replicate (point.toNat - digits.length) '0'
      let fraction := digits.drop point.toNat
      whole ++ '.' :: (if fraction.isEmpty then ['0'] else fraction)
  else
    let mantissa := match digits with
      | [] => []
      | first :: rest => if rest.isEmpty then [first] else first :: '.' :: rest
    let power := point - 1
    let shown := Nat.toDigits 10 power.natAbs
    mantissa ++ 'e' :: (if power < 0 then '-' else '+') ::
      (List.replicate (2 - shown.length) '0' ++ shown)

/-- The text of a double: its shortest decimal, with words for what is not a number. -/
def ofFloat (x : Float) : List Char :=
  let bits := x.toBits.toNat
  let sign := if Nat.pow 2 63 ≤ bits then ['-'] else []
  let magnitude := bits % Nat.pow 2 63
  if magnitude / Nat.pow 2 52 == 2047 then
    if magnitude % Nat.pow 2 52 == 0 then sign ++ "inf".toList else "nan".toList
  else if magnitude == 0 then sign ++ "0.0".toList
  else sign ++ (Binary.ofBits magnitude).shortest.text

end Dragonstone.Decimal
