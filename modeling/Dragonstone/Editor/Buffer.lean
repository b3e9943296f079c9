/-
# The text being edited

A buffer is a text with a cursor.  Its lines are separated by line feeds alone; carriage returns are
taken out when a text is loaded.  Every change of a buffer is reported as a position, how many
characters went there and how many came, from which the stored copy of the text is brought up to
date.
-/

import Dragonstone.Store

namespace Dragonstone.Editor

/-- A text as it is loaded: each carriage return, alone or with a line feed, is a line feed. -/
def loaded : Text → Text
  | [] => []
  | '\r' :: '\n' :: rest => '\n' :: loaded rest
  | '\r' :: rest => '\n' :: loaded rest
  | c :: rest => c :: loaded rest

/-- The offset and the text of a line, if there is such a line. -/
def lineAt? (text : Text) (n : Int) : Option (Nat × Line) :=
  if n < 0 then none
  else
    (afterFeeds? n.toNat text).map fun rest =>
      (text.length - rest.length, rest.takeWhile (· != '\n'))

/-- The offset of a position whose line exists; a character past the end of the line means its
end. -/
def offsetIn? (text : Text) (p : Position) : Option Nat :=
  (lineAt? text p.line).map fun (start, line) => (start + min p.character line.length).toNat

/-- What a change of a text reports. -/
structure TextChange where
  /-- Where the text changed. -/
  position : Int
  /-- How many characters of the old text went. -/
  removed : Int
  /-- How many characters of the new text came. -/
  added : Int
  deriving DecidableEq, Repr

namespace TextChange

/-- The report covers more than there is, as happens when the whole text is replaced. -/
def exceeds (e : TextChange) (old new : Text) : Bool :=
  old.length < e.position + e.removed || new.length < e.position + e.added

/-- The copy of a text brought up to date: the part that changed is taken from the new text, and the
whole of it where the report covers more than there is. -/
def absorb (e : TextChange) (old new : Text) : Text :=
  if e.exceeds old new then new
  else
    replaceRange old ⟨positionAt old e.position, positionAt old (e.position + e.removed)⟩
      (slice e.position (e.position + e.added) new)

end TextChange

structure Buffer where
  text : Text := []
  cursor : Nat := 0
  deriving DecidableEq, Repr

namespace Buffer

def position (b : Buffer) : Position :=
  positionAt b.text b.cursor

def lineBefore (b : Buffer) : Text :=
  ((b.text.take b.cursor).reverse.takeWhile (· != '\n')).reverse

/-- Where a cursor goes when the text between two offsets is replaced. -/
def shifted (start stop added cursor : Nat) : Nat :=
  if cursor < start then cursor
  else if cursor ≤ stop then start + added
  else cursor - (stop - start) + added

/-- The buffer with the text between two offsets replaced. -/
def replace (b : Buffer) (start stop : Nat) (new : Text) : Buffer :=
  ⟨b.text.take start ++ new ++ b.text.drop stop, shifted start stop new.length b.cursor⟩

def moveTo (b : Buffer) (offset : Nat) : Buffer :=
  { b with cursor := offset }

end Buffer

end Dragonstone.Editor
