/-
# What an event does

There are many events, and most of them do the same few things.  An event only displays, lets the
current pane be edited, or opens a document; the pass that is due comes, the current document is
validated, or another configuration is put in force; a pane is saved or closed, or all panes are
asked because the window is to be closed.  What any of these keeps is shown for each of them, and
not for each event.
-/

import Dragonstone.Proofs.Editor.Filing
import Dragonstone.Proofs.Editor.Notice

namespace Dragonstone.Editor

/-- The text that an event types. -/
def Event.typedText : Event → Text
  | .insert text => text
  | .replace _ _ text => text
  | .key pressed _ => pressed.typedText
  | _ => []

/-- What an event may do to a window, apart from what it displays, and what is filed about it. -/
inductive Deed (w : Window) (t : Talk) (e : Event) : Window → List Filing → Prop
  | shows {w' : Window} (core : w'.core = w.core) (notice : w'.notice = w.notice) :
      Deed w t e w' []
  | edits {w' : Window} (f : Desk → Desk) (owes : ∀ d : Desk, d.Owes (f d))
      (leads : '\r' ∉ e.typedText → ∀ d : Desk, d.IsPlain → d.Leads (f d))
      (core : w'.core = (w.edit f).core) (notice : w'.notice = (w.edit f).notice) :
      Deed w t e w' []
  | opens {w' : Window} (uri : String) (path : Option Path) (text : Text)
      (core : w'.core = (w.openDocument uri path text).core)
      (notice : w'.notice = (w.openDocument uri path text).notice) :
      Deed w t e w' [.opened (loaded text)]
  | passes : Deed w t e w.lintPass []
  | validates : Deed w t e w.validateCurrent []
  | configures (c : Config) : Deed w t e (w.configure c) []
  | saves {w' : Window} (askAlways : Bool)
      (core : w'.core = (w.save t w.current askAlways).1.core)
      (notice : w'.notice = (w.save t w.current askAlways).1.notice) :
      Deed w t e w' (w.saving t w.current askAlways)
  | closes {index : Int} {i : Nat} (closing : e = .closePane index)
      (exists? : index.toNat? = some i) : Deed w t e (w.closePane t i).1 (w.closing t i)
  | leaves (closing : e = .closeWindow) :
      Deed w t e (w.confirmAll t w.panes.length).1 (w.closingAll t w.panes.length)

namespace Window

variable (w : Window) (t : Talk) (e : Event)

/-! ### Opening -/

/-- A text without a file is opened, and apart from that only the display changes. -/
theorem deed_openText (text : Text) {w' : Window} (core : w'.core = (w.openText text).core)
    (notice : w'.notice = (w.openText text).notice) :
    Deed w t e w' [.opened (loaded text)] := by
  let counted : Window := { w with untitled := w.untitled + 1 }
  let uri := "untitled:Untitled-" ++ toString counted.untitled
  have opened : (counted.openDocument uri none text).core = (w.openDocument uri none text).core :=
    (counted.core_openDocument uri none text).trans (w.core_openDocument uri none text).symm
  have noticed : (counted.openDocument uri none text).notice =
      (w.openDocument uri none text).notice :=
    (counted.notice_openDocument uri none text).trans (w.notice_openDocument uri none text).symm
  exact .opens uri none text (core.trans opened) (notice.trans noticed)

theorem deed_openPath (path : Path) : Deed w t e (w.openPath path).1 (w.opening path) := by
  unfold openPath
  split
  case h_1 failed =>
    simp only [opening, failed]
    exact .shows rfl rfl
  case h_2 failed =>
    simp only [opening, failed]
    exact .shows (w.core_note _ _) (w.notice_note _ _)
  case h_3 bytes read =>
    split
    case h_1 failed =>
      simp only [opening, read, failed]
      exact .shows rfl rfl
    case h_2 text decoded =>
      simp only [opening, read, decoded]
      refine .opens (w.fileUri path) (some path) text ?_ ?_
      · rw [core_rememberFile, core_note]
      · rw [notice_rememberFile, notice_note]

theorem deed_askOpen : Deed w t e (w.askOpen t).1 (w.acting t .openFile) := by
  simp only [acting, askOpen]
  cases t.next with
  | text name =>
      simp only
      split
      · exact .shows rfl rfl
      · exact w.deed_openPath t e _
  | _ => exact .shows rfl rfl

/-! ### Editing -/

theorem onDesk_fst {α : Type} (f : Desk → Desk × α) : (w.onDesk f).1 = w.edit fun d => (f d).1 := by
  unfold edit onDesk
  split <;> rfl

theorem deed_formatCurrent : Deed w t e w.formatCurrent [] := by
  have formatted : w.formatCurrent.core = (w.onDesk Desk.format).1.core ∧
      w.formatCurrent.notice = (w.onDesk Desk.format).1.notice := by
    unfold formatCurrent
    split
    case h_1 result =>
      rw [result]
      exact ⟨core_note _ _ _, notice_note _ _ _⟩
    case h_2 result =>
      rw [result]
      exact ⟨rfl, rfl⟩
  rw [onDesk_fst] at formatted
  exact .edits _ Desk.owes_format (fun _ d h => h.leads_format) formatted.1 formatted.2

theorem deed_goToDefinition : Deed w t e w.goToDefinition [] := by
  have went : w.goToDefinition.core = (w.onDesk Desk.goToDefinition).1.core ∧
      w.goToDefinition.notice = (w.onDesk Desk.goToDefinition).1.notice := by
    unfold goToDefinition
    split
    all_goals
      rename_i result
      rw [result]
      exact ⟨rfl, rfl⟩
  rw [onDesk_fst] at went
  exact .edits _ Desk.owes_goToDefinition (fun _ d h => h.leads_goToDefinition) went.1 went.2

theorem core_jumpTo (p : Position) : (w.jumpTo p).core = (w.edit fun d => d.goTo p).core := by
  unfold jumpTo
  split
  case h_1 missing =>
    simp only [edit, onDesk, missing]
  case h_2 =>
    let jumped := (w.edit fun d => d.goTo p).modifyPane (w.edit fun d => d.goTo p).current
      fun p => { p with jump := some (lineMark p.buffer.text p.buffer.cursor) }
    show (jumped.remark jumped.current).core = _
    rw [core_remark]
    exact core_modifyPane_of_core _ _ fun _ => rfl

theorem notice_jumpTo (p : Position) :
    (w.jumpTo p).notice = (w.edit fun d => d.goTo p).notice := by
  unfold jumpTo
  split
  case h_1 missing => simp only [edit, onDesk, missing]
  case h_2 => rfl

theorem deed_jumpTo (p : Position) : Deed w t e (w.jumpTo p) [] :=
  .edits (fun d => d.goTo p) (fun d => d.owes_goTo p) (fun _ _ h => h.leads_goTo p)
    (w.core_jumpTo p) (w.notice_jumpTo p)

theorem deed_clickProblem (row : Nat) : Deed w t e (w.clickProblem row) [] := by
  unfold clickProblem
  split
  case h_2 => exact .shows rfl rfl
  case h_1 =>
    let clicked : Window := { w with problems := w.problems.click row }
    -- The desk of the current pane has nothing of the list of problems.
    have same (f : Desk → Desk) : (clicked.edit f).core = (w.edit f).core ∧
        (clicked.edit f).notice = (w.edit f).notice := by
      have current : clicked.pane? = w.pane? := rfl
      unfold edit onDesk
      rw [current]
      split <;> exact ⟨rfl, rfl⟩
    exact .edits _ (fun d => d.owes_goTo _) (fun _ _ h => h.leads_goTo _)
      ((clicked.core_jumpTo _).trans (same _).1) ((clicked.notice_jumpTo _).trans (same _).2)

theorem deed_clickSymbol (row : Nat) : Deed w t e (w.clickSymbol row) [] := by
  unfold clickSymbol
  split
  · exact w.deed_jumpTo t e _
  · exact .shows rfl rfl

/-! ### Other actions -/

theorem deed_saveCurrent (askAlways : Bool) :
    Deed w t e (w.saveCurrent t askAlways).1 (w.saving t w.current askAlways) := by
  unfold saveCurrent
  split
  case h_1 missing =>
    have none : w.panes[w.current]? = none := missing
    have saved : (w.save t w.current askAlways).1 = w := by rw [save, none]
    refine .saves askAlways ?_ ?_
    · rw [saved, core_note]
    · rw [saved, notice_note]
  case h_2 => exact .saves askAlways rfl rfl

theorem deed_askTheme : Deed w t e (w.askTheme t).1 [] := by
  unfold askTheme
  simp only
  split
  · exact .shows (w.core_chooseTheme _) (w.notice_chooseTheme _)
  · exact .shows rfl rfl

theorem deed_askSettings : Deed w t e (w.askSettings t).1 [] := by
  unfold askSettings
  simp only
  split
  · split
    · exact .configures _
    · exact .shows rfl rfl
  · exact .shows rfl rfl

/-- A pane is changed apart from its core, and nothing else happens. -/
theorem deed_modifyPane (i : Nat) {f : Pane → Pane} (same : ∀ p, (f p).core = p.core) :
    Deed w t e (w.modifyPane i f) [] :=
  .shows (w.core_modifyPane_of_core i same) rfl

theorem deed_act (action : Action) : Deed w t e (w.act t action).1 (w.acting t action) := by
  cases action with
  | newFile => exact w.deed_openText t e [] (core_note _ _ _) (notice_note _ _ _)
  | openFile => exact w.deed_askOpen t e
  | save => exact w.deed_saveCurrent t e false
  | saveAs => exact w.deed_saveCurrent t e true
  | format => exact w.deed_formatCurrent t e
  | definition => exact w.deed_goToDefinition t e
  | complete =>
      exact .edits _ Desk.owes_offerCompletions (fun _ d h => h.leads_offerCompletions) rfl rfl
  | validate => exact .validates
  | enlargeFont => exact w.deed_modifyPane t e _ fun _ => rfl
  | shrinkFont => exact w.deed_modifyPane t e _ fun _ => rfl
  | resetFont => exact w.deed_modifyPane t e _ fun _ => rfl
  | theme => exact w.deed_askTheme t e
  | settings => exact w.deed_askSettings t e
  | outline => exact .shows rfl rfl
  | keywordHelp => exact .shows rfl rfl
  | about => exact .shows rfl rfl

/-- An index that does not exist changes nothing. -/
theorem deed_index (index : Int) {f : Nat → Window} {filings : Nat → List Filing}
    (deed : ∀ i, index.toNat? = some i → Deed w t e (f i) (filings i)) :
    Deed w t e ((index.toNat?.map f).getD w) ((index.toNat?.map filings).getD []) := by
  cases exists? : index.toNat? with
  | none => exact .shows rfl rfl
  | some i => exact deed i exists?

/-- As before, where nothing is filed. -/
theorem deed_index_nothing (index : Int) {f : Nat → Window} (deed : ∀ i, Deed w t e (f i) []) :
    Deed w t e ((index.toNat?.map f).getD w) [] := by
  cases index.toNat? with
  | none => exact .shows rfl rfl
  | some i => exact deed i

theorem deed_step : Deed w t e (w.step t e).1 (w.filings t e) := by
  cases e with
  | openPath path => exact w.deed_openPath t _ path
  | openText text => exact w.deed_openText t _ text rfl rfl
  | act action => exact w.deed_act t _ action
  | press button =>
      cases button with
      | clearLog => exact .shows rfl rfl
      | act action => exact w.deed_act t _ action
  | closePane index =>
      have closed : (w.step t (.closePane index)).1 =
          (index.toNat?.map fun i => (w.closePane t i).1).getD w := by
        simp only [step]
        cases index.toNat? <;> rfl
      rw [closed]
      exact w.deed_index t _ index fun i exists? => .closes rfl exists?
  | closeWindow => exact .leaves rfl
  | select index =>
      exact w.deed_index_nothing t _ index fun i => .shows (w.core_select i) (w.notice_select i)
  | tick => exact .passes
  | configure options =>
      simp only [step, filings]
      split
      · exact .configures _
      · exact .shows rfl rfl
  | filterProblems name => exact .shows rfl rfl
  | clickProblem row => exact w.deed_index_nothing t _ row (w.deed_clickProblem t _)
  | clickSymbol row => exact w.deed_index_nothing t _ row (w.deed_clickSymbol t _)
  | insert text =>
      exact .edits _ (fun d => d.owes_insert text) (fun typed d h => h.leads_insert typed) rfl rfl
  | replace start stop text =>
      exact .edits _ (fun d => d.owes_replace _ _ text)
        (fun typed d h => h.leads_replace (Nat.min_le_right _ _) typed) rfl rfl
  | moveTo p => exact .edits _ (fun d => d.owes_goTo p) (fun _ d h => h.leads_goTo p) rfl rfl
  | mouseOver p =>
      exact .edits _ (fun d => d.owes_mouseOver p) (fun _ d h => h.leads_mouseOver p) rfl rfl
  | focus => exact .shows rfl rfl
  | blur => exact .edits _ Desk.owes_blur (fun _ d h => h.leads_blur) rfl rfl
  | clickPopup row =>
      refine .edits _ (fun d => ?_) (fun _ d h => ?_) rfl rfl
      · cases row.toNat? with
        | none => exact .refl d
        | some i => exact d.owes_clickPopup i
      · cases row.toNat? with
        | none => exact h.leads_self
        | some i => exact h.leads_clickPopup i
  | key pressed ctrl =>
      exact .edits _ (fun d => d.owes_press pressed ctrl) (fun typed d h => h.leads_press typed ctrl)
        rfl rfl

end Window

end Dragonstone.Editor
