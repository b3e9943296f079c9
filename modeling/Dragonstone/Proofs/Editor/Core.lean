/-
# The core of a window

Much of what a window does is display: it writes to the log, makes another pane current, lists
problems and symbols, sets marks and hides the popup.  The core of a window is what stays out of
this: the files, the stored texts, and each pane without its marks, its cursor and what is visible
of its popup.  Whatever only displays keeps the core, and whatever opens, closes or renames a
document does to the core one thing.
-/

import Dragonstone.Editor.Window.Files
import Mathlib.Data.List.Basic
import Mathlib.Data.List.InsertIdx

namespace Dragonstone.Editor

/-- A pane without what it displays beside its text. -/
def Pane.core (p : Pane) : Pane where
  uri := p.uri
  path := p.path
  label := p.label
  dirty := p.dirty
  buffer := ⟨p.buffer.text, 0⟩
  popup := { items := p.popup.items }

/-- The files, the stored texts and the cores of the panes. -/
structure Core where
  directory : Directory
  stored : Store
  panes : List Pane

/-- A pane in a list is changed, and what is seen of it. -/
theorem map_modify_pane {α : Type} (view : Pane → α) {f : Pane → Pane} {g : α → α}
    (sees : ∀ p, view (f p) = g (view p)) (panes : List Pane) (i : Nat) :
    (panes.modify i f).map view = (panes.map view).modify i g := by
  refine List.ext_getElem? fun j => ?_
  simp only [List.getElem?_map, List.getElem?_modify]
  split <;> cases panes[j]? <;> simp [sees]

namespace Window

def core (w : Window) : Core :=
  ⟨w.directory, w.session.documents, w.panes.map Pane.core⟩

variable (w : Window)

theorem getElem?_core {i : Nat} {p : Pane} (at_i : w.panes[i]? = some p) :
    w.core.panes[i]? = some p.core := by
  rw [core, List.getElem?_map, at_i]
  rfl

/-! ### What displays -/

theorem core_modifyPane (i : Nat) {f g : Pane → Pane} (core : ∀ p, (f p).core = g p.core) :
    (w.modifyPane i f).core = { w.core with panes := w.core.panes.modify i g } :=
  congrArg (Core.mk w.directory w.session.documents) (map_modify_pane Pane.core core w.panes i)

/-- A pane is changed apart from its core. -/
theorem core_modifyPane_of_core (i : Nat) {f : Pane → Pane} (same : ∀ p, (f p).core = p.core) :
    (w.modifyPane i f).core = w.core := by
  rw [w.core_modifyPane i (g := id) same, List.modify_id]

@[simp] theorem core_note (level : LogLevel) (message : String) :
    (w.note level message).core = w.core := by
  unfold note
  split <;> rfl

@[simp] theorem core_refreshOutline (uri : String) : (w.refreshOutline uri).core = w.core :=
  rfl

@[simp] theorem core_remark (i : Nat) : (w.remark i).core = w.core :=
  w.core_modifyPane_of_core i fun _ => rfl

@[simp] theorem core_publish (p : Publication) : (w.publish p).core = w.core := by
  let received : Window := { w with session := w.session.receive p }
  unfold publish
  simp only
  split
  · exact received.core_remark _
  · rfl

@[simp] theorem core_validate (uri : String) : (w.validate uri).core = w.core :=
  w.core_publish _

@[simp] theorem core_showCurrent : w.showCurrent.core = w.core := by
  unfold showCurrent
  split <;> rfl

@[simp] theorem core_leave (i : Nat) : (w.leave i).core = w.core := by
  unfold leave
  split
  · exact w.core_modifyPane_of_core i fun _ => rfl
  · rfl

@[simp] theorem core_select (i : Nat) : (w.select i).core = w.core := by
  unfold select
  split
  · exact (core_showCurrent _).trans (w.core_leave _)
  · rfl

@[simp] theorem core_rememberFile (path : Path) : (w.rememberFile path).core = w.core :=
  rfl

@[simp] theorem core_lintPass : w.lintPass.core = w.core := by
  unfold lintPass
  split
  · rfl
  · extract_lets waiting
    split
    · exact (core_refreshOutline _ _).trans (core_validate _ _)
    · rfl

@[simp] theorem core_chooseTheme (mode : ThemeMode) : (w.chooseTheme mode).core = w.core := by
  have all (is : List Nat) (w : Window) : (is.foldl remark w).core = w.core := by
    induction is generalizing w with
    | nil => rfl
    | cons i rest ih => exact (ih _).trans (w.core_remark i)
  exact (core_note _ _ _).trans (all _ _)

/-! ### What opens, closes and renames -/

theorem core_addPane (p : Pane) :
    (w.addPane p).core = { w.core with panes := w.core.panes ++ [p.core] } := by
  have added : ({ w with panes := w.panes ++ [p] } : Window).core =
      { w.core with panes := w.core.panes ++ [p.core] } := by
    simp [core]
  unfold addPane
  simp only
  split
  · exact (core_showCurrent _).trans added
  · exact (core_select _ _).trans added

theorem core_removePane (i : Nat) :
    (w.removePane i).core = { w.core with panes := w.core.panes.eraseIdx i } := by
  have removed : (⟨w.directory, w.session.documents, (w.panes.eraseIdx i).map Pane.core⟩ : Core) =
      { w.core with panes := w.core.panes.eraseIdx i } := by
    rw [core, List.eraseIdx_map]
  unfold removePane
  simp only
  split
  · exact (core_showCurrent _).trans removed
  · split
    · exact (core_showCurrent _).trans removed
    · exact removed

/-- The pane in which a text is opened. -/
def openedPane (uri : String) (path : Option Path) (text : Text) : Pane :=
  { uri, path, label := documentName path, buffer := ⟨loaded text, 0⟩ }

theorem core_openDocument (uri : String) (path : Option Path) (text : Text) :
    (w.openDocument uri path text).core =
      ⟨w.directory, w.core.stored.put uri (loaded text),
        w.core.panes ++ [openedPane uri path text]⟩ := by
  unfold openDocument
  simp only [core_refreshOutline, core_validate, core_addPane]
  rfl

theorem core_dropPane {i : Nat} {pane : Pane} (at_i : w.panes[i]? = some pane) :
    (w.dropPane i).core =
      ⟨w.directory, w.core.stored.erase pane.uri, w.core.panes.eraseIdx i⟩ := by
  let published := w.publish ⟨pane.uri, []⟩
  let forgotten : Window := { published with session := published.session.close pane.uri }
  have dropped : w.dropPane i = forgotten.removePane i := by
    simp only [dropPane, at_i]
    rfl
  have same : published.core = w.core := w.core_publish _
  rw [dropped, core_removePane]
  show (⟨published.core.directory, published.core.stored.erase _,
    published.core.panes.eraseIdx i⟩ : Core) = _
  rw [same]
  rfl

/-- A window in which a pane got another file, before its document is validated. -/
def renamed (i : Nat) (old : Pane) (path : Path) : Window :=
  let published := w.publish ⟨old.uri, []⟩
  { published with
    session := ((published.session.close old.uri).forget old.uri).update (w.fileUri path)
      old.buffer.text }.modifyPane i fun p => { p with uri := w.fileUri path, path := some path }

theorem rename_eq {i : Nat} {old : Pane} (at_i : w.panes[i]? = some old) (path : Path) :
    w.rename i path = (w.renamed i old path).validate (w.fileUri path) := by
  simp only [rename, at_i]
  rfl

theorem core_rename {i : Nat} {old : Pane} (at_i : w.panes[i]? = some old) (path : Path) :
    (w.rename i path).core =
      ⟨w.directory, (w.core.stored.erase old.uri).put (w.fileUri path) old.buffer.text,
        w.core.panes.set i { old.core with uri := w.fileUri path, path := some path }⟩ := by
  let published := w.publish ⟨old.uri, []⟩
  have same : published.core = w.core := w.core_publish _
  have sets : (w.renamed i old path).core =
      ⟨published.core.directory,
        (published.core.stored.erase old.uri).put (w.fileUri path) old.buffer.text,
        published.core.panes.modify i fun p =>
          { p with uri := w.fileUri path, path := some path }⟩ :=
    core_modifyPane _ i fun _ => rfl
  rw [w.rename_eq at_i, core_validate, sets, same, List.modify_eq_set_getElem?,
    w.getElem?_core at_i]
  rfl

/-- Validating a pane anew stores its text. -/
theorem core_revalidate {i : Nat} {pane : Pane} (at_i : w.panes[i]? = some pane) :
    (w.revalidate i).core =
      { w.core with stored := w.core.stored.put pane.uri pane.buffer.text } := by
  unfold revalidate
  simp only [at_i, core_validate]
  rfl

end Window

end Dragonstone.Editor
