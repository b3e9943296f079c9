/-
# Positions and ranges

Positions are pairs of a line and a character, both counted from zero.  Clients may send any
integers, so both parts are integers; every range that an analysis produces has natural ones.
-/

namespace Dragonstone

/-- A place in a document: line and character, counted from zero. -/
structure Position where
  line : Int
  character : Int
  deriving DecidableEq, Repr

/-- Positions are compared by line first. -/
def Position.before (p q : Position) : Bool :=
  p.line < q.line || (p.line == q.line && p.character < q.character)

/-- A half-open stretch of a document. -/
structure Range where
  start : Position
  stop : Position
  deriving DecidableEq, Repr

/-- The stretch of one line between two columns. -/
def Range.inLine (line start stop : Nat) : Range :=
  ⟨⟨line, start⟩, ⟨line, stop⟩⟩

def Range.wholeLine (line length : Nat) : Range :=
  Range.inLine line 0 length

/-- The start belongs to the range, the stop does not. -/
def Range.contains (r : Range) (p : Position) : Bool :=
  !p.before r.start && p.before r.stop

/-- A replacement of a stretch of a document. -/
structure Edit where
  range : Range
  replacement : List Char
  deriving DecidableEq, Repr

end Dragonstone
