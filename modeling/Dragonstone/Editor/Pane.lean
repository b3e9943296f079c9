/-
# Panes

A pane shows one document: its buffer, the completion popup, the marks in the text and how the text
is displayed.
-/

import Dragonstone.Editor.Buffer
import Dragonstone.Editor.Mark
import Dragonstone.Editor.Popup
import Dragonstone.Files.Path

namespace Dragonstone.Editor

/-- What a tab calls a document: the name of its file, or a stand-in for it. -/
def documentName : Option Path → Text
  | some path => path.name
  | none => "Untitled".toList

structure Pane where
  uri : String
  /-- The file of the document, if it has one. -/
  path : Option Path := none
  /-- What is written on the tab of the pane. -/
  label : Text := documentName path
  /-- The buffer was changed since it was loaded or saved. -/
  dirty : Bool := false
  buffer : Buffer := {}
  /-- The offset of the cursor when its movement was last noticed. -/
  noticed : Nat := 0
  popup : Popup := {}
  /-- The marks as they were set last, unless the text was edited since. -/
  marks : Option (List Mark) := some []
  /-- The line that was jumped to. -/
  jump : Option Mark := none
  fontSize : Nat := 14
  /-- The word that the mouse was over last. -/
  hovered : Text := []

namespace Pane

/-- The pane is marked as changed, or no longer so, and its tab is written anew. -/
def setDirty (p : Pane) (dirty : Bool) : Pane :=
  { p with
    dirty
    label := if dirty then '*' :: documentName p.path else documentName p.path }

def tooltip (p : Pane) : Text :=
  match p.path with
  | some path => path.text
  | none => []

/-- The marks are set to some diagnostics and the line jumped to. -/
def mark (p : Pane) (found : List Diagnostic) : Pane :=
  { p with marks := some (diagnosticMarks p.buffer.text found ++ p.jump.toList) }

def hidePopup (p : Pane) : Pane :=
  { p with popup := p.popup.hide }

def smallestFont : Nat := 6

def startFont : Nat := 14

def enlarge (p : Pane) : Pane :=
  { p with fontSize := max smallestFont (p.fontSize + 1) }

/-- A smaller font, but not below the smallest size. -/
def shrink (p : Pane) : Pane :=
  { p with fontSize := max smallestFont (p.fontSize - 1) }

/-- The font as it was at first. -/
def resetFont (p : Pane) : Pane :=
  { p with fontSize := startFont }

/-- The categories of the characters of every line. -/
def categories (p : Pane) : List (List (Option Category)) :=
  (highlight 0 (p.buffer.text.splitOn '\n')).map Prod.snd

end Pane

end Dragonstone.Editor
