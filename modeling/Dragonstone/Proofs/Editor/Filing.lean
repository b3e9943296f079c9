/-
# What is filed

Three things happen to documents and their files: a text is loaded into a new pane, the text of a
pane is written to a file, and a pane is closed.  The filings of an event say which of them happen,
in which order.  A text counts as written only where its file can be written, so that filings tell
for every pane the text that it was last loaded with or last written as, and for the files what has
become of them.
-/

import Dragonstone.Editor.Window.Step

namespace Dragonstone.Editor

inductive Filing where
  /-- A text was loaded into a new pane. -/
  | opened (text : Text)
  /-- The text of a pane was written to a file. -/
  | written (i : Nat) (path : Path) (text : Text)
  | closed (i : Nat)
  deriving DecidableEq

namespace Filing

/-- The texts that the panes were last loaded with or last written as. -/
def record (texts : List Text) : Filing → List Text
  | opened text => texts ++ [text]
  | written i _ text => texts.set i text
  | closed i => texts.eraseIdx i

/-- The files after a filing.  Whatever is written can be written. -/
def replay (d : Directory) : Filing → Except FileError Directory
  | written _ path text => d.write path (Utf8.encode text)
  | _ => .ok d

end Filing

namespace Window

/-- The pane that is to be saved and the file that it goes to: its own, or the one that the user
names. -/
def saveTarget? (w : Window) (t : Talk) (i : Nat) (askAlways : Bool) : Option (Pane × Path) := do
  let pane ← w.panes[i]?
  match if askAlways then none else pane.path with
  | some path => some (pane, path)
  | none =>
    match t.next with
    | .text name => if name.isEmpty then none else some (pane, .ofString name)
    | _ => none

/-- What is filed when a pane is saved. -/
def saving (w : Window) (t : Talk) (i : Nat) (askAlways : Bool) : List Filing :=
  match w.saveTarget? t i askAlways with
  | none => []
  | some (pane, path) =>
    match w.directory.write path (Utf8.encode pane.buffer.text) with
    | .ok _ => [.written i path pane.buffer.text]
    | .error _ => []

/-- What is filed when a pane with changes asks whether to save them. -/
def asking (w : Window) (t : Talk) (i : Nat) : List Filing :=
  match w.panes[i]? with
  | none => []
  | some pane =>
    if !pane.dirty then []
    else
      match t.next with
      | .text "Save" => w.saving (t.after .unsavedChanges) i false
      | _ => []

def closing (w : Window) (t : Talk) (i : Nat) : List Filing :=
  match w.confirmClose t i with
  | (v, _, .ok true) => w.asking t i ++ v.panes[i]?.toList.map fun _ => .closed i
  | _ => w.asking t i

/-- What is filed when the first `n` panes are asked, the last one first, until one is kept. -/
def closingAll (w : Window) (t : Talk) : Nat → List Filing
  | 0 => []
  | n + 1 =>
    match w.confirmClose t n with
    | (v, later, .ok true) => w.asking t n ++ v.closingAll later n
    | _ => w.asking t n

def opening (w : Window) (path : Path) : List Filing :=
  match w.directory.read path with
  | .error _ => []
  | .ok bytes =>
    match Utf8.decode bytes with
    | .error _ => []
    | .ok text => [.opened (loaded text)]

def acting (w : Window) (t : Talk) : Action → List Filing
  | .newFile => [.opened []]
  | .openFile =>
    match t.next with
    | .text name => if name.isEmpty then [] else w.opening (.ofString name)
    | _ => []
  | .save => w.saving t w.current false
  | .saveAs => w.saving t w.current true
  | _ => []

/-- What is filed when something happens to the window. -/
def filings (w : Window) (t : Talk) : Event → List Filing
  | .openPath path => w.opening path
  | .openText text => [.opened (loaded text)]
  | .act action => w.acting t action
  | .press (.act action) => w.acting t action
  | .closePane index => (index.toNat?.map (w.closing t)).getD []
  | .closeWindow => w.closingAll t w.panes.length
  | _ => []

/-! ### Saving and closing by what is filed -/

/-- A save writes the pane to the file that it goes to, if it goes to one. -/
theorem save_cases (w : Window) (t : Talk) (i : Nat) (askAlways : Bool) :
    (w.saveTarget? t i askAlways = none ∧ (w.save t i askAlways).1 = w ∧
        (w.save t i askAlways).2.2 = .ok false) ∨
      ∃ pane path, w.panes[i]? = some pane ∧ w.saveTarget? t i askAlways = some (pane, path) ∧
        (w.save t i askAlways).1 = (w.write i pane path).1 ∧
        (w.save t i askAlways).2.2 = (w.write i pane path).2 := by
  unfold save saveTarget?
  cases at_i : w.panes[i]? with
  | none => exact .inl ⟨rfl, rfl, rfl⟩
  | some pane =>
      simp only [Option.bind_eq_bind, Option.bind_some]
      cases own : if askAlways then none else pane.path with
      | some path => exact .inr ⟨pane, path, rfl, rfl, rfl, rfl⟩
      | none =>
          simp only
          cases t.next with
          | text name =>
              simp only
              split
              · exact .inl ⟨rfl, rfl, rfl⟩
              · exact .inr ⟨pane, _, rfl, rfl, rfl, rfl⟩
          | _ => exact .inl ⟨rfl, rfl, rfl⟩

/-- A pane that is to be closed is saved, or nothing happens. -/
theorem confirmClose_cases (w : Window) (t : Talk) (i : Nat) :
    ((w.confirmClose t i).1 = w ∧ w.asking t i = []) ∨
      (w.confirmClose t i).1 = (w.save (t.after .unsavedChanges) i false).1 ∧
        w.asking t i = w.saving (t.after .unsavedChanges) i false := by
  unfold confirmClose asking
  cases at_i : w.panes[i]? with
  | none => exact .inl ⟨rfl, rfl⟩
  | some pane =>
      cases dirty : pane.dirty with
      | false =>
          simp only [dirty]
          exact .inl ⟨rfl, rfl⟩
      | true =>
          simp only [dirty, Bool.not_true, Bool.false_eq_true, if_false]
          split
          case h_1 save => exact .inr ⟨rfl, by simp only [save]⟩
          case h_2 discard => exact .inl ⟨rfl, by simp [discard]⟩
          case h_3 notSave _ =>
            refine .inl ⟨rfl, ?_⟩
            split
            case h_1 save => exact absurd save notSave
            case h_2 => rfl

/-- Closing a pane ends with the question whether to save it, or with its being dropped. -/
theorem closePane_cases (w : Window) (t : Talk) (i : Nat) :
    ((w.closePane t i).1 = (w.confirmClose t i).1 ∧ w.closing t i = w.asking t i) ∨
      (w.closePane t i).1 = (w.confirmClose t i).1.dropPane i ∧
        w.closing t i = w.asking t i ++
          (w.confirmClose t i).1.panes[i]?.toList.map fun _ => .closed i := by
  unfold closePane closing
  obtain ⟨v, later, answer⟩ := w.confirmClose t i
  cases answer with
  | error fault => exact .inl ⟨rfl, rfl⟩
  | ok closing =>
      cases closing with
      | false => exact .inl ⟨rfl, rfl⟩
      | true => exact .inr ⟨rfl, rfl⟩

end Window

end Dragonstone.Editor
