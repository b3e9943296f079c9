/-
# Quoted text

How a message quotes a text.  Single quotes stand around it unless it holds single quotes and no
double ones.  The enclosing quote and the backslash are escaped by a backslash, line feed, carriage
return and tab by a letter, and any other character that is not printable by its number in two,
four or eight hexadecimal digits.
-/

import Dragonstone.Text.Printable

namespace Dragonstone.Quoted

/-- The hexadecimal digits of `n`, at least `width` of them. -/
def hex (width n : Nat) : List Char :=
  let digits := Nat.toDigits 16 n
  List.replicate (width - digits.length) '0' ++ digits

/-- The quote that encloses a text. -/
def enclosing (s : List Char) : Char :=
  if s.contains '\x27' && !s.contains '\x22' then '\x22' else '\x27'

/-- A character within the given quotes. -/
def escape (quote c : Char) : List Char :=
  if c == quote || c == '\\' then ['\\', c]
  else if c == '\n' then ['\\', 'n']
  else if c == '\r' then ['\\', 'r']
  else if c == '\t' then ['\\', 't']
  else if isPrintable c then [c]
  else if c.toNat < 0x100 then '\\' :: 'x' :: hex 2 c.toNat
  else if c.toNat < 0x10000 then '\\' :: 'u' :: hex 4 c.toNat
  else '\\' :: 'U' :: hex 8 c.toNat

/-- A text in quotes. -/
def encode (s : List Char) : List Char :=
  let quote := enclosing s
  quote :: s.flatMap (escape quote) ++ [quote]

end Dragonstone.Quoted
