/-
# Marks that tell the truth

What a tab calls its document is written anew only when the pane is marked as changed or no longer
so.  In between, saving under another name gives the pane another file, and any number of edits,
dialogs and failures may come.  Still, the tab of every pane always bears the name of its file, with
a star in front exactly if the pane is marked, and the text of a pane that is not marked is the one
it was last loaded with or last written as.  As a loaded text counts the one with line feeds alone.

The filings of a run say which texts these are, and they account for every change of the files.  A
save that comes to nothing is not among them, and leaves no trace but in the log.
-/

import Dragonstone.Proofs.Editor.Agreement
import Mathlib.Data.List.Forall2

namespace Dragonstone.Editor

/-! ### Slips and texts -/

/-- The tab tells the truth about a pane whose text was last loaded or written as another. -/
structure Slip.Truthful (s : Slip) (filed : Text) : Prop where
  label : s.label = if s.dirty then '*' :: documentName s.path else documentName s.path
  text : s.dirty = false → s.text = filed

theorem Slip.truthful_edited (s : Slip) (text filed : Text) : (s.edited text).Truthful filed :=
  ⟨rfl, nofun⟩

/-- A pane whose text was just loaded or written. -/
def Slip.clean (path : Option Path) (text : Text) : Slip :=
  ⟨documentName path, path, false, text⟩

theorem Slip.truthful_clean (path : Option Path) (text : Text) :
    (Slip.clean path text).Truthful text :=
  ⟨rfl, fun _ => rfl⟩

section Pairs

variable {α β : Type} {R : α → β → Prop} {as : List α} {bs : List β}

theorem forall₂_eraseIdx (h : List.Forall₂ R as bs) (i : Nat) :
    List.Forall₂ R (as.eraseIdx i) (bs.eraseIdx i) := by
  induction h generalizing i with
  | nil => exact .nil
  | cons here rest ih =>
      cases i with
      | zero => exact rest
      | succ i => exact .cons here (ih i)

theorem forall₂_set (h : List.Forall₂ R as bs) (i : Nat) {a : α} {b : β} (new : R a b) :
    List.Forall₂ R (as.set i a) (bs.set i b) := by
  induction h generalizing i with
  | nil => exact .nil
  | cons here rest ih =>
      cases i with
      | zero => exact .cons new rest
      | succ i => exact .cons here (ih i)

/-- One side of a pair may be replaced by what goes with everything that it went with. -/
theorem forall₂_set_left (h : List.Forall₂ R as bs) {i : Nat} {a a' : α} (at_i : as[i]? = some a)
    (goes : ∀ b, R a b → R a' b) : List.Forall₂ R (as.set i a') bs := by
  obtain ⟨inside, rfl⟩ := List.getElem?_eq_some_iff.mp at_i
  have inside' : i < bs.length := h.length_eq ▸ inside
  have replaced : List.Forall₂ R (as.set i a') (bs.set i bs[i]) :=
    forall₂_set h i (goes _ (h.get inside inside'))
  rwa [List.set_getElem_self] at replaced

end Pairs

namespace Window

/-- What is filed in a run. -/
def filed (w : Window) : List Turn → List Filing
  | [] => []
  | turn :: rest => w.filings ⟨turn.2, []⟩ turn.1 ++ (w.turned turn).filed rest

/-! ### What a window files -/

variable {w w' w'' : Window}

def slips (w : Window) : List Slip :=
  w.panes.map Pane.slip

theorem slips_core (w : Window) : w.core.panes.map Pane.slip = w.slips := by
  rw [core, List.map_map]
  rfl

theorem getElem?_slips {i : Nat} {p : Pane} (at_i : w.panes[i]? = some p) :
    w.slips[i]? = some p.slip := by
  rw [slips, List.getElem?_map, at_i]
  rfl

/-- The filings account for what becomes of the files, and keep the tabs truthful. -/
structure Files (w w' : Window) (filings : List Filing) : Prop where
  directory : filings.foldlM Filing.replay w.directory = .ok w'.directory
  truthful : ∀ texts, List.Forall₂ Slip.Truthful w.slips texts →
    List.Forall₂ Slip.Truthful w'.slips (filings.foldl Filing.record texts)

theorem Files.trans {first second : List Filing} (before : Files w w' first)
    (after : Files w' w'' second) : Files w w'' (first ++ second) where
  directory := by
    rw [List.foldlM_append, before.directory]
    exact after.directory
  truthful texts truthful := by
    rw [List.foldl_append]
    exact after.truthful _ (before.truthful texts truthful)

theorem files_of_slips (directory : w'.directory = w.directory) (slips : w'.slips = w.slips) :
    Files w w' [] :=
  ⟨congrArg Except.ok directory.symm, fun _ truthful => slips ▸ truthful⟩

theorem files_of_core (core : w'.core = w.core) : Files w w' [] := by
  refine files_of_slips (congrArg Core.directory core) ?_
  rw [← slips_core, core, slips_core]

theorem Files.then_core {filings : List Filing} (files : Files w w' filings)
    (core : w''.core = w'.core) : Files w w'' filings :=
  filings.append_nil ▸ files.trans (files_of_core core)

theorem Files.after_core {filings : List Filing} (core : w'.core = w.core)
    (files : Files w' w'' filings) : Files w w'' filings :=
  (files_of_core core).trans files

/-- The text that was filed about a pane. -/
theorem slip_truthful {texts : List Text} (truthful : List.Forall₂ Slip.Truthful w.slips texts)
    {i : Nat} {p : Pane} (at_i : w.panes[i]? = some p) :
    ∃ filed, texts[i]? = some filed ∧ p.slip.Truthful filed := by
  obtain ⟨inside, here⟩ := List.getElem?_eq_some_iff.mp (getElem?_slips at_i)
  have within : i < texts.length := truthful.length_eq ▸ inside
  refine ⟨texts[i], List.getElem?_eq_getElem within, ?_⟩
  rw [← here]
  exact truthful.get inside within

/-! ### Opening, editing and closing -/

theorem files_openDocument (w : Window) (uri : String) (path : Option Path) (text : Text) :
    Files w (w.openDocument uri path text) [.opened (loaded text)] where
  directory := congrArg (Except.ok ∘ Core.directory) (w.core_openDocument uri path text).symm
  truthful texts truthful := by
    rw [← slips_core, core_openDocument, List.map_append, slips_core]
    exact List.rel_append truthful (.cons (Slip.truthful_clean path (loaded text)) .nil)

theorem files_dropPane (w : Window) (i : Nat) :
    Files w (w.dropPane i) (w.panes[i]?.toList.map fun _ => .closed i) := by
  cases at_i : w.panes[i]? with
  | none =>
      rw [dropPane, at_i]
      exact files_of_core rfl
  | some pane =>
      refine ⟨congrArg (Except.ok ∘ Core.directory) (w.core_dropPane at_i).symm, ?_⟩
      intro texts truthful
      rw [← slips_core, w.core_dropPane at_i, ← List.eraseIdx_map, slips_core]
      exact forall₂_eraseIdx truthful i

theorem files_edit (w : Window) {f : Desk → Desk} (owes : ∀ d : Desk, d.Owes (f d)) :
    Files w (w.edit f) [] := by
  unfold edit onDesk
  split
  · exact files_of_core rfl
  case h_2 pane current =>
    let d : Desk := { w.toSurroundings with pane := pane }
    refine ⟨rfl, fun texts truthful => ?_⟩
    simp only [slips, List.map_set]
    refine forall₂_set_left truthful (getElem?_slips current) fun filed before => ?_
    obtain same | ⟨text, edited⟩ := (owes d).slip
    · exact same ▸ before
    · exact edited ▸ Slip.truthful_edited _ text filed

/-! ### Saving -/

/-- Apart from the log, nothing changes. -/
def OnlyLogs (w w' : Window) : Prop :=
  w' = { w with log := w'.log, outputTab := w'.outputTab, warnings := w'.warnings }

theorem OnlyLogs.core (logs : OnlyLogs w w') : w'.core = w.core := by
  rw [logs]
  rfl

/-- A file that cannot be written leaves the window as it was. -/
theorem onlyLogs_write {i : Nat} {pane : Pane} {path : Path} {e : FileError}
    (failed : w.directory.write path (Utf8.encode pane.buffer.text) = .error e) :
    OnlyLogs w (w.write i pane path).1 ∧ (w.write i pane path).2 ≠ .ok true := by
  unfold write
  split
  case h_1 => exact ⟨rfl, nofun⟩
  case h_2 => exact ⟨rfl, nofun⟩
  case h_3 written => cases failed.symm.trans written

/-- A window whose pane was written to a file, before the pane is marked as saved. -/
def refiled (w : Window) (i : Nat) (pane : Pane) (path : Path) (directory : Directory) : Window :=
  let w := { w with directory }
  if pane.path = some path then w else w.rename i path

theorem core_write {i : Nat} {pane : Pane} {path : Path} {directory : Directory}
    (written : w.directory.write path (Utf8.encode pane.buffer.text) = .ok directory) :
    (w.write i pane path).1.core =
      ((w.refiled i pane path directory).modifyPane i fun p => p.setDirty false).core := by
  simp only [write, written]
  rw [core_note, core_rememberFile]
  rfl

theorem directory_refiled {i : Nat} {pane : Pane} (at_i : w.panes[i]? = some pane) (path : Path)
    (directory : Directory) : (w.refiled i pane path directory).directory = directory := by
  let filed : Window := { w with directory }
  unfold refiled
  simp only
  split
  · rfl
  · exact congrArg Core.directory (core_rename filed at_i path)

theorem slips_refiled {i : Nat} {pane : Pane} (at_i : w.panes[i]? = some pane) (path : Path)
    (directory : Directory) : (w.refiled i pane path directory).slips =
      w.slips.set i { pane.slip with path := some path } := by
  let filed : Window := { w with directory }
  unfold refiled
  simp only
  split
  case isTrue same =>
    obtain ⟨_, here⟩ := List.getElem?_eq_some_iff.mp (getElem?_slips at_i)
    rw [← same]
    show w.slips = w.slips.set i pane.slip
    rw [← here, List.set_getElem_self]
  case isFalse =>
    rw [← slips_core, core_rename filed at_i, List.map_set, slips_core]
    rfl

/-- A pane that was written has the file, and no changes. -/
theorem slips_write {i : Nat} {pane : Pane} (at_i : w.panes[i]? = some pane) {path : Path}
    {directory : Directory}
    (written : w.directory.write path (Utf8.encode pane.buffer.text) = .ok directory) :
    (w.write i pane path).1.slips = w.slips.set i (Slip.clean (some path) pane.buffer.text) := by
  have marked (v : Window) : (v.modifyPane i fun p => p.setDirty false).slips =
      v.slips.modify i fun s => Slip.clean s.path s.text :=
    map_modify_pane Pane.slip (fun _ => rfl) v.panes i
  have inside : i < w.slips.length := (List.getElem?_eq_some_iff.mp (getElem?_slips at_i)).1
  rw [← slips_core, core_write written, slips_core, marked, slips_refiled at_i,
    List.modify_eq_set_getElem?, List.getElem?_set_self inside]
  exact List.set_set _

theorem directory_write {i : Nat} {pane : Pane} (at_i : w.panes[i]? = some pane) {path : Path}
    {directory : Directory}
    (written : w.directory.write path (Utf8.encode pane.buffer.text) = .ok directory) :
    (w.write i pane path).1.directory = directory :=
  (congrArg Core.directory (core_write written)).trans (directory_refiled at_i path directory)

theorem files_write {i : Nat} {pane : Pane} (at_i : w.panes[i]? = some pane) {path : Path}
    {directory : Directory}
    (written : w.directory.write path (Utf8.encode pane.buffer.text) = .ok directory) :
    Files w (w.write i pane path).1 [.written i path pane.buffer.text] where
  directory := by
    rw [directory_write at_i written, List.foldlM_cons, Filing.replay, written]
    rfl
  truthful texts truthful := by
    rw [slips_write at_i written]
    exact forall₂_set truthful i (Slip.truthful_clean _ _)

/-- A save comes to nothing: the user names no file, or the file cannot be written. -/
def SaveFails (w : Window) (t : Talk) (i : Nat) (askAlways : Bool) : Prop :=
  ∀ goes ∈ w.saveTarget? t i askAlways,
    (w.directory.write goes.2 (Utf8.encode goes.1.buffer.text)).isOk = false

instance (w : Window) (t : Talk) (i : Nat) (askAlways : Bool) :
    Decidable (w.SaveFails t i askAlways) :=
  inferInstanceAs (Decidable (∀ goes ∈ _, _))

/-- A save that comes to nothing leaves the window as it was. -/
theorem onlyLogs_save {t : Talk} {i : Nat} {askAlways : Bool} (fails : w.SaveFails t i askAlways) :
    OnlyLogs w (w.save t i askAlways).1 ∧ (w.save t i askAlways).2.2 ≠ .ok true := by
  obtain ⟨target, same, answer⟩ | ⟨pane, path, _, target, same, answer⟩ :=
    w.save_cases t i askAlways
  · rw [same, answer]
    exact ⟨rfl, nofun⟩
  · have failed := fails (pane, path) target
    rw [same, answer]
    cases result : w.directory.write path (Utf8.encode pane.buffer.text) with
    | error e => exact onlyLogs_write result
    | ok directory => cases (congrArg Except.isOk result).symm.trans failed

theorem files_save (w : Window) (t : Talk) (i : Nat) (askAlways : Bool) :
    Files w (w.save t i askAlways).1 (w.saving t i askAlways) := by
  obtain ⟨target, same, _⟩ | ⟨pane, path, at_i, target, same, _⟩ := w.save_cases t i askAlways
  · rw [same, saving, target]
    exact files_of_core rfl
  · rw [same, saving, target]
    simp only
    split
    case h_1 directory written => exact files_write at_i written
    case h_2 e failed => exact files_of_core (onlyLogs_write failed).1.core

/-! ### Closing -/

theorem files_confirmClose (w : Window) (t : Talk) (i : Nat) :
    Files w (w.confirmClose t i).1 (w.asking t i) := by
  obtain ⟨kept, nothing⟩ | ⟨saved, filed⟩ := w.confirmClose_cases t i
  · rw [kept, nothing]
    exact files_of_core rfl
  · rw [saved, filed]
    exact w.files_save _ i false

/-- A pane with changes is to be closed, and the user wants them saved. -/
def SavesOnClose (w : Window) (t : Talk) (i : Nat) : Prop :=
  t.next = .text "Save" ∧ ∃ pane ∈ w.panes[i]?, pane.dirty = true

instance (w : Window) (t : Talk) (i : Nat) : Decidable (w.SavesOnClose t i) :=
  inferInstanceAs (Decidable (_ ∧ ∃ pane ∈ _, _))

theorem confirmClose_of_saves {t : Talk} {i : Nat} (saves : w.SavesOnClose t i) :
    w.confirmClose t i = w.save (t.after .unsavedChanges) i false := by
  obtain ⟨save, pane, at_i, dirty⟩ := saves
  simp only [confirmClose, Option.mem_def.mp at_i, dirty, save, Bool.not_true, Bool.false_eq_true,
    if_false]

/-- Where the save before closing comes to nothing, the pane is not closed. -/
theorem onlyLogs_closePane {t : Talk} {i : Nat} (saves : w.SavesOnClose t i)
    (fails : w.SaveFails (t.after .unsavedChanges) i false) : OnlyLogs w (w.closePane t i).1 := by
  obtain ⟨logs, kept⟩ := onlyLogs_save fails
  rw [← confirmClose_of_saves saves] at logs kept
  unfold closePane
  split
  case h_1 answered => exact absurd (congrArg (·.2.2) answered) kept
  case h_2 => exact logs

theorem files_closePane (w : Window) (t : Talk) (i : Nat) :
    Files w (w.closePane t i).1 (w.closing t i) := by
  have asked := w.files_confirmClose t i
  obtain ⟨kept, filed⟩ | ⟨dropped, filed⟩ := w.closePane_cases t i
  · rw [kept, filed]
    exact asked
  · rw [dropped, filed]
    exact asked.trans (files_dropPane _ i)

theorem files_confirmAll (w : Window) (t : Talk) (n : Nat) :
    Files w (w.confirmAll t n).1 (w.closingAll t n) := by
  induction n generalizing w t with
  | zero => exact files_of_core rfl
  | succ n ih =>
      have asked := w.files_confirmClose t n
      obtain ⟨ended, _, filed⟩ | ⟨later, goesOn, _, filed⟩ := w.confirmAll_succ_cases t n
      · rw [ended, filed]
        exact asked
      · rw [goesOn, filed]
        exact asked.trans (ih _ later)

/-! ### One event -/

theorem files_revalidate (w : Window) (i : Nat) : Files w (w.revalidate i) [] := by
  cases at_i : w.panes[i]? with
  | none =>
      rw [revalidate, at_i]
      exact files_of_core rfl
  | some pane =>
      have kept := w.core_revalidate at_i
      refine files_of_slips (congrArg Core.directory kept) ?_
      rw [← slips_core, kept, slips_core]

theorem files_configure (w : Window) (c : Config) : Files w (w.configure c) [] := by
  have all (is : List Nat) (w : Window) : Files w (is.foldl revalidate w) [] := by
    induction is generalizing w with
    | nil => exact files_of_core rfl
    | cons i rest ih => exact (w.files_revalidate i).trans (ih _)
  let configured : Window := { w with
    session := { w.session with config := c }
    preferences := w.preferences.putConfig c }
  have same : configured.core = w.core := rfl
  exact ((all _ configured).after_core same).then_core (core_note _ _ _)

theorem files_validateCurrent (w : Window) : Files w w.validateCurrent [] := by
  unfold validateCurrent
  split
  · exact files_of_core rfl
  · refine (w.files_edit Desk.owes_sync).then_core ?_
    rw [core_refreshOutline, core_validate]

/-- What an event files accounts for what it does to the files, and keeps the tabs truthful. -/
theorem files_step (w : Window) (t : Talk) (e : Event) :
    Files w (w.step t e).1 (w.filings t e) := by
  have deed := w.deed_step t e
  generalize (w.step t e).1 = w', w.filings t e = filings at deed ⊢
  cases deed with
  | shows core _ => exact files_of_core core
  | edits f owes _ core _ => exact (w.files_edit owes).then_core core
  | opens uri path text core _ => exact (w.files_openDocument uri path text).then_core core
  | passes => exact files_of_core w.core_lintPass
  | validates => exact w.files_validateCurrent
  | configures c => exact w.files_configure c
  | saves askAlways core _ => exact (w.files_save t _ askAlways).then_core core
  | closes => exact w.files_closePane t _
  | leaves => exact w.files_confirmAll t _

/-- A run files what accounts for its files, and keeps the tabs truthful. -/
theorem files_after (w : Window) (turns : List Turn) :
    Files w (w.after turns) (w.filed turns) := by
  induction turns generalizing w with
  | nil => exact files_of_core rfl
  | cons turn rest ih => exact (w.files_step _ _).trans (ih (w.turned turn))

end Window

open Window

/-- A run in which a document is made, saved under a name, edited again, and then not saved, because
its new folder does not exist.  A second document is not edited, and a third one is, without having
a file. -/
def unsavedRun : List Turn :=
  [(.openText "x".toList, []), (.act .saveAs, [.text "a.ds"]), (.insert "y".toList, []),
    (.act .saveAs, [.text "gone/b.ds"]), (.openText "z".toList, []), (.openText [], []),
    (.insert "q".toList, [])]

end Dragonstone.Editor
