/-
# Indentation

The indentation of every line of code follows from a count of open blocks, kept for this purpose
alone: it does not go below zero, and a line with an orphaned `end` or branch leaves it in its own
way.  Edits replace nothing but leading space, and only where it differs.  Applying edits keeps the
line breaks of the text.
-/

import Dragonstone.Block
import Dragonstone.Comment
import Dragonstone.Position
import Dragonstone.Role
import Dragonstone.Text.Lines
import Dragonstone.Text.Slice

namespace Dragonstone

open Block

/-- What the formatter knows before a line. -/
structure Layout where
  /-- How many levels a line of code is indented by. -/
  level : Nat := 0
  /-- The nesting depth of block comments. -/
  depth : Int := 0
  deriving DecidableEq, Repr

/-- The level at which a masked line stands: a branch or terminator stands one level further out. -/
def ownLevel (masked : Line) (level : Nat) : Nat :=
  if (branch? masked).isSome || isTerminator masked then level - 1 else level

/-- The level after a masked line that stands at level `own`. -/
def nextLevel (masked : Line) (own : Nat) : Nat :=
  if (branch? masked).isSome then
    if closesInline masked then own else own + 1
  else if (opener? masked).isSome then own + 1
  else own

def indentation (width level : Nat) : Text :=
  List.replicate (width * level) ' '

/-- A line keeps its layout if it begins inside a block comment, is empty or is a line comment. -/
def keepsLayout (line : Line) (depth : Int) : Bool :=
  0 < depth || isSkipped line

/-- The replacement of a line's leading space, where it is not the wanted one. -/
def reindent? (n : Nat) (line wanted : Text) : Option Edit :=
  let current := leadingSpace line
  if current = wanted then none else some ⟨Range.inLine n 0 current.length, wanted⟩

def Layout.step (width n : Nat) (line : Line) (l : Layout) : Layout × Option Edit :=
  let depth := (scanComments line l.depth).depth
  if keepsLayout line l.depth then (⟨l.level, depth⟩, none)
  else
    let masked := mask line
    let own := ownLevel masked l.level
    (⟨nextLevel masked own, depth⟩, reindent? n line (indentation width own))

/-- The edits of the lines from line `n` on. -/
def Layout.edits (width n : Nat) (l : Layout) : List Line → List Edit
  | [] => []
  | line :: rest =>
    let (next, edit) := l.step width n line
    edit.toList ++ next.edits width (n + 1) rest

/-- The edits that give every line of code its indentation. -/
def formatEdits (width : Nat) (text : Text) : List Edit :=
  Layout.edits width 0 {} (lines text)

/-! ### Applying edits -/

inductive EditError where
  /-- An edit counts lines from the end, past the first one. -/
  | lineOutOfRange
  deriving DecidableEq, Repr

def EditError.message : EditError → String
  | .lineOutOfRange => "list index out of range"

/-- The order in which edits are applied: from the end of the document to its start. -/
def Edit.notBefore (a b : Edit) : Bool :=
  !a.range.start.before b.range.start

/-- A line with the part between two columns replaced. -/
def spliceLine (line : Line) (e : Edit) : Line :=
  upTo e.range.start.character line ++ e.replacement ++ fromOn e.range.stop.character line

/-- The index of an edit's line.  Negative lines count from the last one; lines past the end give
nothing to do. -/
def Edit.lineIndex? (e : Edit) (count : Nat) : Except EditError (Option Nat) :=
  let n := e.range.start.line
  if count ≤ n then .ok none
  else if 0 ≤ n then .ok (some n.toNat)
  else if 0 ≤ count + n then .ok (some (count + n).toNat)
  else .error .lineOutOfRange

def applyEdit (ls : List Line) (e : Edit) : Except EditError (List Line) := do
  match ← e.lineIndex? ls.length with
  | none => return ls
  | some i => return ls.modify i fun line => spliceLine line e

/-- Edits applied to a text, the last one in the document first. -/
def applyEdits (text : Text) (edits : List Edit) : Except EditError Text := do
  let ls ← (edits.mergeSort Edit.notBefore).foldlM applyEdit (lines text)
  return weave ls (lineBreaks text)

/-- A text with the edits applied that format it. -/
def formatted (width : Nat) (text : Text) : Text :=
  match applyEdits text (formatEdits width text) with
  | .ok result => result
  | .error _ => text

end Dragonstone
