/-
# The main window

The window has one pane for every open document, of which one is current, the list of problems and
the outline of the current document, and a log.  Diagnostics are published for a document, not for a
pane: what is published is remembered under the uri of the document, and shown at once if that is
the document of the current pane.
-/

import Dragonstone.Editor.Desk
import Dragonstone.Editor.Preferences
import Dragonstone.Editor.ProblemList
import Dragonstone.Files.Directory
import Dragonstone.Log

namespace Dragonstone.Editor

/-- The two views below the panes. -/
inductive OutputTab where
  | problems
  | log
  deriving DecidableEq, Repr

def OutputTab.title : OutputTab → String
  | .problems => "Problems"
  | .log => "Logs"

def windowTitle : String := "Dragonstone Editor"

def outlineHeader : List String := ["Symbol", "Kind", "Line"]

/-- Where the editor runs. -/
structure Place where
  /-- The components of the working directory, seen from the root of all files. -/
  folder : List Text := []
  /-- The home of the user. -/
  home : Path := ⟨['/'], []⟩
  deriving DecidableEq, Repr

structure Window extends Surroundings where
  place : Place := {}
  directory : Directory := {}
  preferences : Preferences := {}
  theme : Theme := ⟨.system, .light⟩
  panes : List Pane := []
  /-- The index of the current pane. -/
  current : Nat := 0
  problems : ProblemList := {}
  outline : List Symbol := []
  outlineShown : Bool := true
  log : List String := []
  outputTab : OutputTab := .problems
  /-- The message in the status bar and for how many milliseconds it is shown. -/
  status : Option (String × Nat) := none
  /-- The file that was opened or saved last. -/
  lastFile? : Option String := none
  /-- How many documents without a file were made. -/
  untitled : Nat := 0
  /-- The warnings and errors that were logged. -/
  warnings : List String := []

namespace Window

def start (place : Place) (preferences : Preferences) (directory : Directory) : Window :=
  { session := { config := preferences.startConfig }
    place, directory, preferences
    theme := .start preferences
    lastFile? := preferences.lastFile?
    warnings := preferences.startWarnings }

def pane? (w : Window) : Option Pane :=
  w.panes[w.current]?

def uri? (w : Window) : Option String :=
  w.pane?.map Pane.uri

def modifyPane (w : Window) (i : Nat) (f : Pane → Pane) : Window :=
  { w with panes := w.panes.modify i f }

/-- Let the current pane be edited. -/
def onDesk {α : Type} (w : Window) (f : Desk → Desk × α) : Window × Option α :=
  match w.pane? with
  | none => (w, none)
  | some pane =>
    let (d, a) := f { w.toSurroundings with pane }
    ({ w with toSurroundings := d.toSurroundings, panes := w.panes.set w.current d.pane }, some a)

def edit (w : Window) (f : Desk → Desk) : Window :=
  (w.onDesk fun d => (f d, ())).1

/-- Write to the log.  Warnings and errors carry their level and bring the log to the front. -/
def note (w : Window) (level : LogLevel) (message : String) : Window :=
  if level.rank ≤ LogLevel.info.rank then { w with log := w.log ++ [message] }
  else
    { w with
      log := w.log ++ ["[" ++ level.name ++ "] " ++ message]
      outputTab := .log
      warnings := w.warnings ++ [message] }

def logText (w : Window) : String :=
  String.intercalate "\n" w.log

/-- The outline shows the symbols of a document. -/
def refreshOutline (w : Window) (uri : String) : Window :=
  { w with outline := w.session.documents.symbols uri }

/-- The marks of a pane are set to what was last published for its document. -/
def remark (w : Window) (i : Nat) : Window :=
  w.modifyPane i fun p => p.mark (w.session.found p.uri)

/-- Diagnostics are published for a document, and shown if it is the current one. -/
def publish (w : Window) (p : Publication) : Window :=
  let w := { w with session := w.session.receive p }
  if w.uri? = some p.uri then
    { w.remark w.current with problems := w.problems.display p.diagnostics }
  else w

def validate (w : Window) (uri : String) : Window :=
  w.publish ⟨uri, w.session.documents.diagnostics w.session.config uri⟩

/-- Problems and outline are those of the current document. -/
def showCurrent (w : Window) : Window :=
  match w.uri? with
  | none => { w with problems := w.problems.display [], outline := [] }
  | some uri => { w with problems := w.problems.display (w.session.found uri) }.refreshOutline uri

/-- The keyboard leaves a pane for another one, where it was in it. -/
def leave (w : Window) (i : Nat) : Window :=
  if w.focused then w.modifyPane i Pane.hidePopup else w

/-- Another pane becomes current.  The keyboard goes with it. -/
def select (w : Window) (i : Nat) : Window :=
  if i < w.panes.length ∧ i ≠ w.current then { w.leave w.current with current := i }.showCurrent
  else w

def addPane (w : Window) (p : Pane) : Window :=
  let added := { w with panes := w.panes ++ [p] }
  if w.panes.isEmpty then { added with current := 0 }.showCurrent
  else added.select w.panes.length

/-- A pane is removed.  After the current one its successor becomes current, or the new last one. -/
def removePane (w : Window) (i : Nat) : Window :=
  let panes := w.panes.eraseIdx i
  if i = w.current then
    { w with
      panes
      current := min i (panes.length - 1)
      focused := w.focused && !panes.isEmpty }.showCurrent
  else if i < w.current then { w with panes, current := w.current - 1 }.showCurrent
  else { w with panes }

def fileUri (w : Window) (path : Path) : String :=
  path.uri w.place.folder

def openDocument (w : Window) (uri : String) (path : Option Path) (text : Text) : Window :=
  let text := loaded text
  let w := { w with session := w.session.update uri text }
  let w := w.addPane { uri, path, label := documentName path, buffer := ⟨text, 0⟩ }
  (w.validate uri).refreshOutline uri

/-- A text without a file is opened. -/
def openText (w : Window) (text : Text) : Window :=
  let n := w.untitled + 1
  { w with untitled := n }.openDocument ("untitled:Untitled-" ++ toString n) none text

def rememberFile (w : Window) (path : Path) : Window :=
  { w with
    lastFile? := some path.toString
    preferences := w.preferences.putLastFile path.toString }

/-- The cursor of the current pane jumps to a place, whose line is marked. -/
def jumpTo (w : Window) (p : Position) : Window :=
  match w.pane? with
  | none => w
  | some _ =>
    let w := w.edit fun d => d.goTo p
    let w := w.modifyPane w.current fun p =>
      { p with jump := some (lineMark p.buffer.text p.buffer.cursor) }
    { w.remark w.current with focused := true }

/-- The lint pass that is due.  It checks a document only while it is the current one. -/
def lintPass (w : Window) : Window :=
  match w.lint with
  | none => w
  | some uri =>
    let w := { w with lint := none }
    if w.uri? = some uri then (w.validate uri).refreshOutline uri else w

/-- The current document is validated as it is in the buffer. -/
def validateCurrent (w : Window) : Window :=
  match w.uri? with
  | none => w
  | some uri => ((w.edit Desk.sync).validate uri).refreshOutline uri

/-- The buffer of a pane is validated. -/
def revalidate (w : Window) (i : Nat) : Window :=
  match w.panes[i]? with
  | none => w
  | some p => { w with session := w.session.update p.uri p.buffer.text }.validate p.uri

/-- Another configuration is put in force and remembered, and every pane is validated with it. -/
def configure (w : Window) (c : Config) : Window :=
  let w := { w with
    session := { w.session with config := c }
    preferences := w.preferences.putConfig c }
  ((List.range w.panes.length).foldl revalidate w).note .info ("Analyzer settings: " ++ c.describe)

/-- Another theme is chosen and remembered, and the marks of every pane take its colours. -/
def chooseTheme (w : Window) (mode : ThemeMode) : Window :=
  let w := { w with
    preferences := w.preferences.putThemeMode mode
    theme := w.theme.choose mode }
  ((List.range w.panes.length).foldl remark w).note .info ("Theme changed to " ++ mode.name)

end Window

end Dragonstone.Editor
