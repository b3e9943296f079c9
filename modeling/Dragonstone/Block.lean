/-
# Block structure of a line

What a masked line does to the nesting of blocks.  The same recognisers serve the checker, which
keeps a stack of open blocks, and the formatter, which keeps a count.
-/

import Dragonstone.Text.Word
import Dragonstone.Vocabulary

namespace Dragonstone.Block

open Vocabulary

/-- The last word of the line is `end`, with nothing but blanks after it. -/
def closesInline (line : Line) : Bool :=
  (words line).any fun (w, rest) => w == endKeyword && rest.all isBlank

/-- The line without the modifiers in front, each of which needs a blank after it. -/
def afterModifiers (s : Text) : Text :=
  match _gap : afterGap? (afterWord s) with
  | some rest =>
    if (visibilityModifiers ++ abstractModifiers).contains (word s) then afterModifiers rest else s
  | none => s
termination_by s.length
decreasing_by exact Nat.lt_of_lt_of_le (length_lt_of_afterGap? _gap) (length_afterWord_le s)

/-- The block keyword at the front of the line, after any modifiers. -/
def leadingOpener? (line : Line) : Option Text :=
  let w := word (afterModifiers (skipBlanks line))
  if blockKeywords.contains w then some w else none

/-- The function keyword of an anonymous function: one with a parenthesis after it. -/
def anonymousFunction? (line : Line) : Option Text :=
  ((words line).find? fun (w, rest) =>
    functionKeywords.contains w && opensWith '(' rest).map Prod.fst

/-- The keyword that opens a block on this line.  A line that ends with `end` opens nothing. -/
def opener? (line : Line) : Option Text :=
  if closesInline line then none
  else leadingOpener? line <|> anonymousFunction? line <|>
    (if hasWord doKeyword line then some doKeyword else none)

def isTerminator (line : Line) : Bool :=
  word (skipBlanks line) == endKeyword

/-- The keyword with which the line begins a new branch of a block. -/
def branch? (line : Line) : Option Text :=
  let w := word (skipBlanks line)
  if branchKeywords.contains w then some w else none

/-- What a line does to the stack of open blocks. -/
inductive Form where
  /-- A new branch replaces the one before it; `closed` branches end on their own line. -/
  | branch (keyword : Text) (closed : Bool)
  | opening (keyword : Text)
  | closing
  | plain
  deriving DecidableEq, Repr

/-- A branch is looked for first, then an opener, then the terminator. -/
def Form.ofLine (line : Line) : Form :=
  match branch? line with
  | some keyword => .branch keyword (closesInline line)
  | none =>
    match opener? line with
    | some keyword => .opening keyword
    | none => if isTerminator line then .closing else .plain

/-- A block that is open, with the line that opened it. -/
structure Frame where
  keyword : Text
  line : Nat
  deriving DecidableEq, Repr

/-- The effect of one form on the stack, the innermost block first.  The second part is the keyword
that found no open block. -/
def feed (n : Nat) (stack : List Frame) : Form → List Frame × Option Text
  | .branch keyword closed =>
    match stack with
    | [] => ([], some keyword)
    | _ :: outer => if closed then (outer, none) else (⟨keyword, n⟩ :: outer, none)
  | .opening keyword => (⟨keyword, n⟩ :: stack, none)
  | .closing =>
    match stack with
    | [] => ([], some endKeyword)
    | _ :: outer => (outer, none)
  | .plain => (stack, none)

/-- Some open block lists the members of an enumeration. -/
def inEnum (stack : List Frame) : Bool :=
  stack.any fun frame => frame.keyword == enumKeyword

end Dragonstone.Block
