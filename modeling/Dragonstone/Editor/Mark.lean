/-
# Marks in the text

Diagnostics are underlined where they are.  A range that is a single position underlines its whole
line, and a range whose first line does not exist is left out.
-/

import Dragonstone.Editor.Buffer
import Dragonstone.Editor.Theme

namespace Dragonstone.Editor

/-- A mark between two offsets of a text. -/
structure Mark where
  start : Nat
  stop : Nat
  /-- The diagnostic that is underlined; the line last jumped to has none. -/
  diagnostic? : Option Diagnostic
  deriving DecidableEq, Repr

def lastLine (text : Text) : Nat × Line :=
  let line := (text.reverse.takeWhile (· != '\n')).reverse
  (text.length - line.length, line)

/-- The stretch of a text that a range covers. -/
def markedStretch? (text : Text) (r : Range) : Option (Nat × Nat) := do
  let (start, line) ← lineAt? text r.start.line
  if r.start = r.stop then return (start, start + line.length)
  else
    let (lastStart, last) := (lineAt? text r.stop.line).getD (lastLine text)
    let first := (start + min r.start.character line.length).toNat
    let final := (lastStart + min r.stop.character last.length).toNat
    return (min first final, max first final)

def diagnosticMarks (text : Text) (found : List Diagnostic) : List Mark :=
  found.filterMap fun d =>
    (markedStretch? text d.range).map fun (start, stop) => ⟨start, stop, some d⟩

def lineMark (text : Text) (cursor : Nat) : Mark :=
  let before := ((text.take cursor).reverse.takeWhile (· != '\n')).length
  let after := ((text.drop cursor).takeWhile (· != '\n')).length
  ⟨cursor - before, cursor + after, none⟩

end Dragonstone.Editor
