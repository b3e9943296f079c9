/-
# The completion popup

A list of completions beside the cursor, with one row selected.  Hiding the popup keeps its rows and
its selection, so that it can still be walked through.
-/

import Dragonstone.Completion.Item

namespace Dragonstone.Editor

open Completion (Item)

structure Popup where
  items : List Item := []
  row : Option Nat := none
  visible : Bool := false
  deriving DecidableEq, Repr

namespace Popup

def hide (p : Popup) : Popup :=
  { p with visible := false }

/-- The popup shows some items, the first one selected.  Without items it is hidden. -/
def offer (p : Popup) (items : List Item) : Popup :=
  if items.isEmpty then p.hide else ⟨items, some 0, true⟩

def next (p : Popup) : Popup :=
  match p.row with
  | some r => if r + 1 < p.items.length then { p with row := some (r + 1) } else p
  | none => p

def previous (p : Popup) : Popup :=
  match p.row with
  | some (r + 1) => { p with row := some r }
  | _ => p

def selected? (p : Popup) : Option Item :=
  p.row.bind fun r => p.items[r]?

end Popup

end Dragonstone.Editor
