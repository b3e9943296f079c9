/-
# Documents and their changes

A store holds the text of every open document under its uri.  A change replaces a range, whose ends
are positions; a position is turned into an offset that never lies outside the text, nor between the
two characters of a line break.
-/

import Dragonstone.KeyMap
import Dragonstone.Position
import Dragonstone.Text.Slice

namespace Dragonstone

/-- The text after `n` line feeds, if it has so many. -/
def afterFeeds? (n : Nat) (s : Text) : Option Text :=
  match n, s with
  | 0, s => some s
  | _ + 1, [] => none
  | n + 1, c :: rest => if c == '\n' then afterFeeds? n rest else afterFeeds? (n + 1) rest

/-- The length of the first line, without the carriage return that belongs to its break. -/
def firstLineLength (s : Text) : Nat :=
  let line := s.takeWhile (· != '\n')
  if line.length < s.length && line.getLast? == some '\r' then line.length - 1 else line.length

/-- The offset of a position.  A line past the end means the end of the text, and a character past
the end of its line means the end of the line. -/
def offsetOf (text : Text) (p : Position) : Int :=
  match afterFeeds? p.line.toNat text with
  | none => text.length
  | some rest =>
    let start : Int := text.length - rest.length
    min (start + p.character) (start + firstLineLength rest)

/-- The position of an offset, which is first moved into the text. -/
def positionAt (text : Text) (offset : Int) : Position :=
  let before := text.take offset.toNat
  ⟨before.count '\n', (before.reverse.takeWhile (· != '\n')).length⟩

/-- The text with a range replaced.  A range that ends before it starts replaces nothing. -/
def replaceRange (text : Text) (r : Range) (replacement : Text) : Text :=
  let start := offsetOf text r.start
  let stop := offsetOf text r.stop
  upTo start text ++ replacement ++ fromOn (max start stop) text

abbrev Store := KeyMap Text

/-- The text of a document after a change, where a document that is not open counts as empty. -/
def Store.changed (store : Store) (uri : String) (r : Range) (replacement : Text) : Text :=
  replaceRange ((store.get? uri).getD []) r replacement

def Store.applyChange (store : Store) (uri : String) (r : Range) (replacement : Text) : Store :=
  store.put uri (store.changed uri r replacement)

end Dragonstone
