/-
# Opening, saving and closing

A document is saved to its file, or to one that the user is asked for.  Saving under another name
gives the document another uri: the old document is closed and the new one validated.  A pane with
changes asks before it is closed.
-/

import Dragonstone.Editor.Dialog
import Dragonstone.Editor.Window

namespace Dragonstone.Editor

/-- What breaks off an action, where an error of the file system is only logged. -/
inductive Fault where
  | notText (error : Utf8.Error)
  | nullInName
  deriving Repr

namespace Window

/-- A file is opened.  Gives whether it could be read; a file that is no text is a fault. -/
def openPath (w : Window) (path : Path) : Window × Except Fault Bool :=
  match w.directory.read path with
  | .error .nullInName => (w, .error .nullInName)
  | .error e => (w.note .error ("Cannot open " ++ path.toString ++ ": " ++ e.message), .ok false)
  | .ok bytes =>
    match Utf8.decode bytes with
    | .error e => (w, .error (.notText e))
    | .ok text =>
      let opened := w.openDocument (w.fileUri path) (some path) text
      ((opened.note .info ("Opened " ++ String.ofList path.name)).rememberFile path, .ok true)

/-- The document of a pane gets another file. -/
def rename (w : Window) (i : Nat) (path : Path) : Window :=
  match w.panes[i]? with
  | none => w
  | some old =>
    let uri := w.fileUri path
    let w := w.publish ⟨old.uri, []⟩
    let session := (((w.session.close old.uri).forget old.uri).update uri old.buffer.text)
    let w := { w with session }.modifyPane i fun p => { p with uri, path := some path }
    w.validate uri

/-- The buffer of a pane is written to a file.  Gives whether it could be. -/
def write (w : Window) (i : Nat) (pane : Pane) (path : Path) : Window × Except Fault Bool :=
  match w.directory.write path (Utf8.encode pane.buffer.text) with
  | .error .nullInName => (w, .error .nullInName)
  | .error e => (w.note .error ("Cannot save " ++ path.toString ++ ": " ++ e.message), .ok false)
  | .ok directory =>
    let w := { w with directory }
    let w := if pane.path = some path then w else w.rename i path
    let w := w.modifyPane i fun p => p.setDirty false
    ((w.rememberFile path).note .info ("Saved " ++ String.ofList path.name), .ok true)

def saveFolder (w : Window) (pane : Pane) : Path :=
  match pane.path with
  | some path => path.parent
  | none => w.place.home

/-- A pane is saved.  The user is asked for a file if there is none, or if that is wanted.  Gives
whether the pane was saved. -/
def save (w : Window) (t : Talk) (i : Nat) (askAlways : Bool) :
    Window × Talk × Except Fault Bool :=
  match w.panes[i]? with
  | none => (w, t, .ok false)
  | some pane =>
    match if askAlways then none else pane.path with
    | some path =>
      let (w, saved) := w.write i pane path
      (w, t, saved)
    | none =>
      let asked := t.after (.saveFile (w.saveFolder pane).toString)
      match t.next with
      | .text name =>
        if name.isEmpty then (w, asked, .ok false)
        else
          let (w, saved) := w.write i pane (.ofString name)
          (w, asked, saved)
      | _ => (w, asked, .ok false)

/-- A pane with changes asks whether to save them.  Gives whether the pane may be closed. -/
def confirmClose (w : Window) (t : Talk) (i : Nat) : Window × Talk × Except Fault Bool :=
  match w.panes[i]? with
  | none => (w, t, .ok true)
  | some pane =>
    if !pane.dirty then (w, t, .ok true)
    else
      let asked := t.after .unsavedChanges
      match t.next with
      | .text "Save" => w.save asked i false
      | .text "Discard" => (w, asked, .ok true)
      | _ => (w, asked, .ok false)

/-- The document of a pane is closed and the pane removed. -/
def dropPane (w : Window) (i : Nat) : Window :=
  match w.panes[i]? with
  | none => w
  | some pane =>
    let w := w.publish ⟨pane.uri, []⟩
    { w with session := w.session.close pane.uri }.removePane i

/-- A pane is closed, unless the user keeps it.  Gives whether it may be closed. -/
def closePane (w : Window) (t : Talk) (i : Nat) : Window × Talk × Except Fault Bool :=
  match w.confirmClose t i with
  | (w, t, .ok true) => (w.dropPane i, t, .ok true)
  | kept => kept

/-- The first `n` panes are asked, the last one first, until one is kept.  Gives whether none was
kept. -/
def confirmAll (w : Window) (t : Talk) : Nat → Window × Talk × Except Fault Bool
  | 0 => (w, t, .ok true)
  | n + 1 =>
    match w.confirmClose t n with
    | (w, t, .ok true) => w.confirmAll t n
    | kept => kept

def askOpen (w : Window) (t : Talk) : Window × Talk × Except Fault Bool :=
  let folder := match w.lastFile? with
    | some name => (Path.ofString name).parent
    | none => w.place.home
  let asked := t.after (.openFile folder.toString)
  match t.next with
  | .text name =>
    if name.isEmpty then (w, asked, .ok false)
    else
      let (w, opened) := w.openPath (.ofString name)
      (w, asked, opened)
  | _ => (w, asked, .ok false)

end Window

end Dragonstone.Editor
