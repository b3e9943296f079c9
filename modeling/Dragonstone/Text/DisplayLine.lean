/-
# Lines of a displayed text

A display breaks a text at every character that Unicode or ASCII gives the meaning of a line or
section break, and takes a carriage return and line feed together.  A break at the very end starts
no further line.
-/

import Dragonstone.Text.Lines

namespace Dragonstone

/-- A character that ends a line on a display. -/
def isDisplayBreak (c : Char) : Bool :=
  let n := c.toNat
  (0x0a ≤ n && n ≤ 0x0d) || (0x1c ≤ n && n ≤ 0x1e) || n == 0x85 || n == 0x2028 || n == 0x2029

def displayLines : Text → List Line
  | [] => []
  | '\r' :: '\n' :: rest => [] :: displayLines rest
  | c :: rest => if isDisplayBreak c then [] :: displayLines rest else consChar c (displayLines rest)

end Dragonstone
