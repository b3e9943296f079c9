/-
# Block comments

A block comment opens with a number sign before a bracket and closes with a bracket before a number
sign; comments nest, and the nesting depth is carried from line to line.  Two readings of the
markers of a line live here: the net count, clamped at zero, which gives the depth after the line,
and the walk from left to right, which finds the closing markers that nothing had opened.
-/

import Dragonstone.Text

namespace Dragonstone

inductive Marker where
  | opening
  | closing
  deriving DecidableEq, Repr

/-- The marker that the two characters spell. -/
def Marker.ofPair? (a b : Char) : Option Marker :=
  if a == '#' && b == '[' then some .opening
  else if a == ']' && b == '#' then some .closing
  else none

def Marker.weight : Marker → Int
  | .opening => 1
  | .closing => -1

/-- The markers of a text with their columns, the first column being `col`. -/
def markersFrom (col : Nat) : Text → List (Nat × Marker)
  | [] => []
  | [_] => []
  | a :: b :: rest =>
    match Marker.ofPair? a b with
    | some m => (col, m) :: markersFrom (col + 1) (b :: rest)
    | none => markersFrom (col + 1) (b :: rest)

def markers (line : Line) : List (Nat × Marker) :=
  markersFrom 0 line

def markerCount (kind : Marker) (line : Line) : Nat :=
  (markers line).countP fun m => m.2 == kind

/-- What one line does to the depth of block comments. -/
structure CommentScan where
  /-- The depth after the line. -/
  depth : Int
  /-- The line ends inside a comment or closes one, and gets no further analysis. -/
  inComment : Bool
  /-- By how much the count went below zero. -/
  overClosed : Nat
  deriving DecidableEq, Repr

/-- The depth after a line: what its markers add up to, clamped at zero. -/
def scanComments (line : Line) (depth : Int) : CommentScan :=
  let closes := markerCount .closing line
  let net := depth + markerCount .opening line - closes
  ⟨max net 0, 0 < net || 0 < closes, (-net).toNat⟩

theorem scanComments_depth_nonneg (line : Line) (depth : Int) :
    0 ≤ (scanComments line depth).depth :=
  Int.le_max_right _ _

/-- The walk over markers with a running depth.  A closing marker at depth zero is a stray and
leaves the depth as it is.  Gives the columns of the strays and the final depth. -/
def walkMarkers (depth : Int) : List (Nat × Marker) → List Nat × Int
  | [] => ([], depth)
  | (col, m) :: rest =>
    if m == .closing && depth == 0 then
      let (strays, final) := walkMarkers depth rest
      (col :: strays, final)
    else walkMarkers (depth + m.weight) rest

/-- Columns of the closing markers that close nothing. -/
def strayCloses (line : Line) (depth : Int) : List Nat :=
  (walkMarkers depth (markers line)).1

/-- An empty line or a line comment has nothing to check. -/
def isSkipped (line : Line) : Bool :=
  match firstInk line with
  | none => true
  | some c => c == '#'

end Dragonstone
