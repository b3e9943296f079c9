/-
# What a window has noticed

Apart from sheets and stored texts, a window remembers which document waits for a lint pass, which
configuration is in force and what was last published about each document.  Editing reaches the
first of these three and no other: where it changes the text of a pane, the document of this pane
waits afterwards, and the pane is marked as changed.  What a window does with its panes, its log and
its lists reaches none of them, and validating a document publishes what it finds in the stored
text.
-/

import Dragonstone.Proofs.Editor.Papers

namespace Dragonstone.Editor

open Completion (Item)

/-! ### Slips -/

/-- What a pane has to do with its file: what its tab calls it, where it is, whether there are
changes, and the text. -/
structure Slip where
  label : Text
  path : Option Path
  dirty : Bool
  text : Text

def Pane.slip (p : Pane) : Slip :=
  ⟨p.label, p.path, p.dirty, p.buffer.text⟩

/-- A slip with another text, which is marked as changed. -/
def Slip.edited (s : Slip) (text : Text) : Slip :=
  ⟨'*' :: documentName s.path, s.path, true, text⟩

/-! ### Editing -/

namespace Desk

/-- One desk may become the other, which owes a lint pass and is marked as changed where the text is
another. -/
structure Owes (d d' : Desk) : Prop where
  config : d'.session.config = d.session.config
  published : d'.session.published = d.session.published
  uri : d'.pane.uri = d.pane.uri
  pass : d'.lint = some d.pane.uri ∨ d'.lint = d.lint ∧ d'.pane.buffer.text = d.pane.buffer.text
  slip : d'.pane.slip = d.pane.slip ∨ ∃ text, d'.pane.slip = d.pane.slip.edited text

variable (d : Desk)

theorem Owes.refl : d.Owes d :=
  ⟨rfl, rfl, rfl, .inr ⟨rfl, rfl⟩, .inl rfl⟩

variable {d} in
theorem Owes.trans {d' d'' : Desk} (first : d.Owes d') (second : d'.Owes d'') : d.Owes d'' where
  config := second.config.trans first.config
  published := second.published.trans first.published
  uri := second.uri.trans first.uri
  pass := by
    obtain due | ⟨lint, text⟩ := second.pass
    · exact .inl (first.uri ▸ due)
    · exact first.pass.imp lint.trans fun same => ⟨lint.trans same.1, text.trans same.2⟩
  slip := by
    obtain same | ⟨text, edited⟩ := second.slip
    · rw [same]
      exact first.slip
    · refine .inr ⟨text, ?_⟩
      obtain same | ⟨earlier, same⟩ := first.slip
      · rw [edited, same]
      · rw [edited, same]
        rfl

theorem owes_sync : d.Owes d.sync :=
  ⟨rfl, rfl, rfl, .inr ⟨rfl, rfl⟩, .inl rfl⟩

theorem owes_offerCompletions : d.Owes d.offerCompletions :=
  ⟨rfl, rfl, rfl, .inr ⟨rfl, rfl⟩, .inl rfl⟩

theorem owes_hidePopup : d.Owes d.hidePopup :=
  ⟨rfl, rfl, rfl, .inr ⟨rfl, rfl⟩, .inl rfl⟩

theorem owes_noticeCursor : d.Owes d.noticeCursor := by
  unfold noticeCursor
  split
  · exact .refl d
  · let noticed : Desk := { d with pane.noticed := d.pane.buffer.cursor }
    have unchanged : d.Owes noticed := ⟨rfl, rfl, rfl, .inr ⟨rfl, rfl⟩, .inl rfl⟩
    simp only
    split
    · exact unchanged
    · split
      · exact unchanged.trans noticed.owes_offerCompletions
      · exact unchanged.trans noticed.owes_hidePopup

theorem owes_moveCursor (offset : Nat) : d.Owes (d.moveCursor offset) := by
  let moved : Desk := { d with pane.buffer := d.pane.buffer.moveTo offset }
  have unchanged : d.Owes moved := ⟨rfl, rfl, rfl, .inr ⟨rfl, rfl⟩, .inl rfl⟩
  exact unchanged.trans moved.owes_noticeCursor

theorem owes_goTo (p : Position) : d.Owes (d.goTo p) := by
  unfold goTo
  split
  · exact d.owes_moveCursor _
  · exact .refl d

theorem owes_changed (e : TextChange) (b : Buffer) : d.Owes (d.changed e b) :=
  ⟨rfl, rfl, rfl, .inl rfl, .inr ⟨b.text, rfl⟩⟩

theorem owes_replace (start stop : Nat) (new : Text) : d.Owes (d.replace start stop new) :=
  (d.owes_changed _ _).trans (owes_noticeCursor _)

theorem owes_insert (new : Text) : d.Owes (d.insert new) :=
  d.owes_replace _ _ new

theorem owes_accept (item : Item) : d.Owes (d.accept item) :=
  ((d.owes_replace _ _ _).trans (owes_moveCursor _ _)).trans (owes_hidePopup _)

theorem owes_mouseOver (p : Position) : d.Owes (d.mouseOver p) := by
  unfold mouseOver
  extract_lets n line column word
  split
  · exact .refl d
  · split
    · exact ⟨rfl, rfl, rfl, .inr ⟨rfl, rfl⟩, .inl rfl⟩
    · exact ⟨rfl, rfl, rfl, .inr ⟨rfl, rfl⟩, .inl rfl⟩

theorem owes_goToDefinition : d.Owes d.goToDefinition.1 := by
  unfold goToDefinition
  simp only
  split
  · exact d.owes_sync
  · exact d.owes_sync.trans (d.sync.owes_goTo _)

theorem owes_format : d.Owes d.format.1 := by
  unfold format
  simp only
  split
  · exact d.owes_sync
  · exact (d.owes_sync.trans (d.sync.owes_replace _ _ _)).trans (owes_goTo _ _)

theorem owes_edit (key : Key) : d.Owes (d.edit key) := by
  cases key with
  | enter => exact d.owes_insert _
  | backspace => exact d.owes_replace _ _ _
  | left => exact d.owes_moveCursor _
  | right => exact d.owes_moveCursor _
  | typed text => exact d.owes_insert text
  | _ => exact .refl d

theorem owes_command (key : Key) (ctrl : Bool) : d.Owes (d.command key ctrl) := by
  unfold command
  split
  · split
    · exact d.owes_offerCompletions
    · exact .refl d
  · exact d.owes_goToDefinition
  · exact d.owes_insert _
  · exact d.owes_edit key

theorem owes_acceptSelected (key : Key) (ctrl : Bool) : d.Owes (d.acceptSelected key ctrl) := by
  unfold acceptSelected
  split
  · exact d.owes_accept _
  · exact d.owes_command key ctrl

theorem owes_press (key : Key) (ctrl : Bool) : d.Owes (d.press key ctrl) := by
  unfold press
  split
  case isFalse => exact d.owes_command key ctrl
  case isTrue =>
    cases key with
    | up => exact ⟨rfl, rfl, rfl, .inr ⟨rfl, rfl⟩, .inl rfl⟩
    | down => exact ⟨rfl, rfl, rfl, .inr ⟨rfl, rfl⟩, .inl rfl⟩
    | enter => exact d.owes_acceptSelected _ ctrl
    | tab => exact d.owes_acceptSelected _ ctrl
    | escape => exact d.owes_hidePopup
    | _ => exact d.owes_command _ ctrl

theorem owes_clickPopup (row : Nat) : d.Owes (d.clickPopup row) := by
  unfold clickPopup
  split
  · exact (d.owes_accept _).trans (owes_hidePopup _)
  · exact .refl d

theorem owes_blur : d.Owes d.blur := by
  unfold blur
  split
  · exact ⟨rfl, rfl, rfl, .inr ⟨rfl, rfl⟩, .inl rfl⟩
  · exact .refl d

end Desk

/-! ### The notice of a window -/

/-- The document that waits for a lint pass, the configuration, and what was published. -/
structure Notice where
  lint : Option String
  config : Config
  published : KeyMap (List Diagnostic)

/-- A publication is remembered. -/
def Notice.receive (a : Notice) (p : Publication) : Notice :=
  { a with published := a.published.put p.uri p.diagnostics }

theorem diagnostics_put (stored : Store) (config : Config) (uri : String) (text : Text) :
    Store.diagnostics (stored.put uri text) config uri = validate config text := by
  rw [Store.diagnostics, KeyMap.get?_put, if_pos rfl]

namespace Window

def notice (w : Window) : Notice :=
  ⟨w.lint, w.session.config, w.session.published⟩

variable (w : Window)

@[simp] theorem notice_note (level : LogLevel) (message : String) :
    (w.note level message).notice = w.notice := by
  unfold note
  split <;> rfl

@[simp] theorem notice_refreshOutline (uri : String) : (w.refreshOutline uri).notice = w.notice :=
  rfl

@[simp] theorem notice_remark (i : Nat) : (w.remark i).notice = w.notice :=
  rfl

@[simp] theorem notice_rememberFile (path : Path) : (w.rememberFile path).notice = w.notice :=
  rfl

@[simp] theorem notice_showCurrent : w.showCurrent.notice = w.notice := by
  unfold showCurrent
  split <;> rfl

@[simp] theorem notice_leave (i : Nat) : (w.leave i).notice = w.notice := by
  unfold leave
  split <;> rfl

@[simp] theorem notice_select (i : Nat) : (w.select i).notice = w.notice := by
  unfold select
  split
  · exact (notice_showCurrent _).trans (w.notice_leave _)
  · rfl

@[simp] theorem notice_chooseTheme (mode : ThemeMode) : (w.chooseTheme mode).notice = w.notice := by
  have all (is : List Nat) (w : Window) : (is.foldl remark w).notice = w.notice := by
    induction is generalizing w with
    | nil => rfl
    | cons i rest ih => exact (ih _).trans (w.notice_remark i)
  exact (notice_note _ _ _).trans (all _ _)

@[simp] theorem notice_addPane (p : Pane) : (w.addPane p).notice = w.notice := by
  unfold addPane
  simp only
  split
  · exact notice_showCurrent _
  · exact notice_select _ _

@[simp] theorem notice_removePane (i : Nat) : (w.removePane i).notice = w.notice := by
  unfold removePane
  simp only
  split
  · exact notice_showCurrent _
  · split
    · exact notice_showCurrent _
    · rfl

@[simp] theorem notice_publish (p : Publication) : (w.publish p).notice = w.notice.receive p := by
  unfold publish
  simp only
  split <;> rfl

/-- Validating a document publishes what is found in the stored text. -/
theorem notice_validate (uri : String) :
    (w.validate uri).notice =
      w.notice.receive ⟨uri, w.papers.stored.diagnostics w.notice.config uri⟩ :=
  w.notice_publish _

theorem notice_openDocument (uri : String) (path : Option Path) (text : Text) :
    (w.openDocument uri path text).notice =
      w.notice.receive ⟨uri, Dragonstone.validate w.notice.config (loaded text)⟩ := by
  unfold openDocument
  simp only [notice_refreshOutline, notice_validate, notice_addPane, papers_addPane]
  show w.notice.receive ⟨uri, Store.diagnostics (w.session.documents.put uri (loaded text))
    w.notice.config uri⟩ = _
  rw [diagnostics_put]

theorem notice_dropPane {i : Nat} {pane : Pane} (at_i : w.panes[i]? = some pane) :
    (w.dropPane i).notice = w.notice.receive ⟨pane.uri, []⟩ := by
  simp only [dropPane, at_i, notice_removePane]
  exact w.notice_publish _

theorem notice_rename {i : Nat} {old : Pane} (at_i : w.panes[i]? = some old) (path : Path) :
    (w.rename i path).notice =
      { w.notice with
        published := ((w.notice.published.put old.uri []).erase old.uri).put (w.fileUri path)
          (Dragonstone.validate w.notice.config old.buffer.text) } := by
  let published := w.publish ⟨old.uri, []⟩
  have received : published.notice = w.notice.receive ⟨old.uri, []⟩ := w.notice_publish _
  have noticed : (w.renamed i old path).notice =
      { published.notice with published := published.notice.published.erase old.uri } := rfl
  have found : (w.renamed i old path).papers.stored.diagnostics (w.renamed i old path).notice.config
        (w.fileUri path) =
      Dragonstone.validate (w.renamed i old path).notice.config old.buffer.text :=
    diagnostics_put _ _ _ _
  rw [w.rename_eq at_i, notice_validate, found, noticed, received]
  rfl

theorem notice_revalidate {i : Nat} {pane : Pane} (at_i : w.panes[i]? = some pane) :
    (w.revalidate i).notice =
      w.notice.receive ⟨pane.uri, Dragonstone.validate w.notice.config pane.buffer.text⟩ := by
  simp only [revalidate, at_i]
  rw [notice_validate]
  show w.notice.receive ⟨pane.uri, Store.diagnostics (w.session.documents.put pane.uri
    pane.buffer.text) w.notice.config pane.uri⟩ = _
  rw [diagnostics_put]

/-- The pass that is due for the current document validates it. -/
theorem notice_lintPass {uri : String} (due : w.lint = some uri) (current : w.uri? = some uri) :
    w.lintPass.notice = { w.notice with lint := none }.receive
      ⟨uri, w.papers.stored.diagnostics w.notice.config uri⟩ := by
  let served : Window := { w with lint := none }
  have here : served.uri? = some uri := current
  have passed : w.lintPass = (served.validate uri).refreshOutline uri := by
    simp only [lintPass, due]
    exact if_pos here
  rw [passed, notice_refreshOutline, notice_validate]
  rfl

/-- The pass that is due for another document is dropped. -/
theorem lintPass_of_away {uri : String} (due : w.lint = some uri) (away : w.uri? ≠ some uri) :
    w.lintPass = { w with lint := none } := by
  let served : Window := { w with lint := none }
  have elsewhere : served.uri? ≠ some uri := away
  simp only [lintPass, due]
  exact if_neg elsewhere

end Window

end Dragonstone.Editor
