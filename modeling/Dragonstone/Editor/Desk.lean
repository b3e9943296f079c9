/-
# Editing

A desk is a pane together with what it shares with all other panes: the session that stores the
documents, the document that waits for a lint pass, the keyboard focus and the tooltip.  Every edit
brings the stored text up to date by what changed, marks the pane as changed and asks for a lint
pass.  Where the keyboard is in the pane, every movement of the cursor decides whether completions
are offered.
-/

import Dragonstone.Completion.Filter
import Dragonstone.Completion.Snippet
import Dragonstone.Editor.HoverText
import Dragonstone.Editor.Pane
import Dragonstone.Session

namespace Dragonstone.Editor

open Completion (Item typedPrefix)

/-- What all panes share. -/
structure Surroundings where
  session : Session := {}
  /-- The document whose lint pass is due. -/
  lint : Option String := none
  /-- The keyboard is in the current pane. -/
  focused : Bool := false
  /-- The tooltip that is shown. -/
  tooltip : Option Text := none

/-- A pane in its surroundings. -/
structure Desk extends Surroundings where
  pane : Pane

/-- Completions are offered after two characters of a word and after a trigger character. -/
def wantsCompletions (before : Text) : Bool :=
  1 < (typedPrefix before).length ||
    match before.getLast? with
    | some c => Vocabulary.triggerCharacters.contains c
    | none => false

inductive Key where
  | up
  | down
  | left
  | right
  | enter
  | tab
  | escape
  | space
  | backspace
  | definition
  | typed (text : Text)
  deriving DecidableEq, Repr

namespace Desk

/-- The stored text is replaced by the buffer. -/
def sync (d : Desk) : Desk :=
  { d with session := d.session.update d.pane.uri d.pane.buffer.text }

def completions (d : Desk) : List Item :=
  Completion.filter (d.session.documents.candidates d.pane.uri d.pane.buffer.position)
    (typedPrefix d.pane.buffer.lineBefore)

/-- The popup shows the completions at the cursor, if there are any. -/
def offerCompletions (d : Desk) : Desk :=
  let d := d.sync
  { d with pane.popup := d.pane.popup.offer d.completions }

def hidePopup (d : Desk) : Desk :=
  { d with pane := d.pane.hidePopup }

/-- A cursor that is not where it was noticed last is noticed. -/
def noticeCursor (d : Desk) : Desk :=
  if d.pane.buffer.cursor = d.pane.noticed then d
  else
    let d := { d with pane.noticed := d.pane.buffer.cursor }
    if !d.focused then d
    else if wantsCompletions d.pane.buffer.lineBefore then d.offerCompletions
    else d.hidePopup

/-- The buffer was changed as the report says. -/
def changed (d : Desk) (e : TextChange) (b : Buffer) : Desk :=
  let stored := (d.session.documents.get? d.pane.uri).getD []
  { d with
    session := d.session.update d.pane.uri (e.absorb stored b.text)
    lint := some d.pane.uri
    pane := { d.pane with buffer := b, marks := none, jump := none }.setDirty true }

def replace (d : Desk) (start stop : Nat) (new : Text) : Desk :=
  (d.changed ⟨start, (stop - start : Nat), new.length⟩
    (d.pane.buffer.replace start stop new)).noticeCursor

def insert (d : Desk) (new : Text) : Desk :=
  d.replace d.pane.buffer.cursor d.pane.buffer.cursor new

def moveCursor (d : Desk) (offset : Nat) : Desk :=
  noticeCursor { d with pane.buffer := d.pane.buffer.moveTo offset }

/-- The cursor is moved to a position, if its line exists. -/
def goTo (d : Desk) (p : Position) : Desk :=
  match offsetIn? d.pane.buffer.text p with
  | some offset => d.moveCursor offset
  | none => d

/-- A completion takes the place of the word being typed. -/
def accept (d : Desk) (item : Item) : Desk :=
  let b := d.pane.buffer
  let start := b.cursor - (typedPrefix b.lineBefore).length
  let (new, offset) := item.insertion
  ((d.replace start b.cursor new).moveCursor (start + offset)).hidePopup

/-- The text that is shown about a position: the symbol there, or else the help for the word. -/
def hoverText (d : Desk) (p : Position) : Text :=
  match d.session.documents.hover? d.pane.uri p with
  | some hover => plainHover hover.contents
  | none =>
    match lineAt? d.pane.buffer.text p.line with
    | none => []
    | some (_, line) =>
      match Lookup.wordAt? line p.character with
      | none => []
      | some (start, stop) => Vocabulary.help (Lookup.between line start stop)

/-- The mouse is over a position.  The tooltip changes only when the mouse comes over another
word. -/
def mouseOver (d : Desk) (p : Position) : Desk :=
  let n := min (max p.line 0) (d.pane.buffer.text.count '\n')
  let line := ((lineAt? d.pane.buffer.text n).map Prod.snd).getD []
  let column := min (max p.character 0) line.length
  let word := match Lookup.wordAt? line column with
    | some (start, stop) => Lookup.between line start stop
    | none => []
  if word = d.pane.hovered then d
  else
    let d := { d with pane.hovered := word }
    if word.isEmpty then { d with tooltip := none }
    else
      let d := d.sync
      let shown := d.hoverText ⟨n, column⟩
      { d with tooltip := if shown.isEmpty then none else some shown }

/-- The cursor goes to the definition of the word at the cursor.  Gives the place, if there is
one. -/
def goToDefinition (d : Desk) : Desk × Option Position :=
  let d := d.sync
  match d.session.documents.definition? d.pane.uri d.pane.buffer.position with
  | none => (d, none)
  | some found => (d.goTo found.range.start, some found.range.start)

/-- The buffer is formatted, and the cursor stays on its line and column.  Gives the number of
edits. -/
def format (d : Desk) : Desk × Nat :=
  let d := d.sync
  let edits := d.session.documents.formatEdits d.session.config d.pane.uri
  if edits.isEmpty then (d, 0)
  else
    let text := d.pane.buffer.text
    let new := formatted d.session.config.indentWidth text
    ((d.replace 0 text.length new).goTo d.pane.buffer.position, edits.length)

/-- A key that edits the text or moves the cursor. -/
def edit (d : Desk) : Key → Desk
  | .enter => d.insert ['\n']
  | .backspace => d.replace (d.pane.buffer.cursor - 1) d.pane.buffer.cursor []
  | .left => d.moveCursor (d.pane.buffer.cursor - 1)
  | .right => d.moveCursor (min (d.pane.buffer.cursor + 1) d.pane.buffer.text.length)
  | .typed new => d.insert new
  | _ => d

/-- A key that is not meant for the popup. -/
def command (d : Desk) (key : Key) (ctrl : Bool) : Desk :=
  match key with
  | .space => if ctrl then d.offerCompletions else d
  | .definition => d.goToDefinition.1
  | .tab => d.insert d.session.config.indentUnit
  | key => d.edit key

/-- The selected completion is accepted, or the key is a command where none is selected. -/
def acceptSelected (d : Desk) (key : Key) (ctrl : Bool) : Desk :=
  match d.pane.popup.selected? with
  | some item => d.accept item
  | none => d.command key ctrl

/-- A key is pressed.  While the popup is visible, some keys are meant for it. -/
def press (d : Desk) (key : Key) (ctrl : Bool) : Desk :=
  if d.pane.popup.visible then
    match key with
    | .up => { d with pane.popup := d.pane.popup.previous }
    | .down => { d with pane.popup := d.pane.popup.next }
    | .enter => d.acceptSelected key ctrl
    | .tab => d.acceptSelected key ctrl
    | .escape => d.hidePopup
    | key => d.command key ctrl
  else d.command key ctrl

def clickPopup (d : Desk) (row : Nat) : Desk :=
  match d.pane.popup.items[row]? with
  | some item => (d.accept item).hidePopup
  | none => d

def blur (d : Desk) : Desk :=
  if d.focused then { d.hidePopup with focused := false } else d

end Desk

end Dragonstone.Editor
