/-
# What events do to what is held

What is held about a document is right if it is what validation finds in the text of its pane.
Most events leave it right and ask for no pass: a document is validated when it is opened, saved
under another name or checked on demand, and every document is validated when the configuration
changes.  Events that edit publish nothing; where they change the text of a pane, its document waits
for a pass.  The only other thing that happens to the pass is that its time comes.

As with stored texts, this needs that no two panes show the document, also while an event closes
several panes.
-/

import Dragonstone.Proofs.Editor.Agreement
import Dragonstone.Proofs.Editor.Notice

namespace Dragonstone.Editor

/-- Where a uri has at most one sheet, its sheets are the same. -/
theorem Papers.eq_of_mem {a : Papers} {uri : String} (alone : a.copies uri ≤ 1) {s t : Sheet}
    (hs : s ∈ a.sheets) (ht : t ∈ a.sheets) (uri_s : s.uri = uri) (uri_t : t.uri = uri) :
    s = t := by
  obtain ⟨i, at_i⟩ := List.mem_iff_getElem?.mp hs
  obtain ⟨j, at_j⟩ := List.mem_iff_getElem?.mp ht
  obtain rfl := eq_of_copies_le_one alone at_i at_j uri_s uri_t
  exact Option.some.inj (at_i.symm.trans at_j)

/-- What was last published for a document. -/
def Notice.found (a : Notice) (uri : String) : List Diagnostic :=
  (a.published.get? uri).getD []

theorem Notice.found_receive (a : Notice) (p : Publication) (uri : String) :
    (a.receive p).found uri = if uri = p.uri then p.diagnostics else a.found uri := by
  rw [found, receive, KeyMap.get?_put]
  split <;> rfl

namespace Window

/-- What is held about a document is what validation finds in its text. -/
def Fresh (w : Window) (uri : String) : Prop :=
  ∀ s ∈ w.papers.sheets, s.uri = uri →
    w.notice.found uri = Dragonstone.validate w.notice.config s.text

instance (w : Window) (uri : String) : Decidable (w.Fresh uri) :=
  inferInstanceAs (Decidable (∀ s ∈ _, _ → _))

variable {w w' w'' : Window} {uri : String}

theorem fresh_iff (papers : w'.papers = w.papers) (notice : w'.notice = w.notice) :
    w'.Fresh uri ↔ w.Fresh uri := by
  rw [Fresh, Fresh, papers, notice]

/-- One document is published about: if this is the document, its sheets have to be right now, and
else they have to be those that were right before. -/
theorem fresh_of_receive {p : Publication} (notice : w'.notice = w.notice.receive p)
    (own : uri = p.uri → ∀ s ∈ w'.papers.sheets, s.uri = uri →
      p.diagnostics = Dragonstone.validate w.notice.config s.text)
    (other : uri ≠ p.uri → ∀ s ∈ w'.papers.sheets, s.uri = uri → s ∈ w.papers.sheets)
    (fresh : w.Fresh uri) : w'.Fresh uri := by
  intro s mem hs
  rw [notice, Notice.found_receive]
  split
  case isTrue same => exact own same s mem hs
  case isFalse apart => exact fresh s (other apart s mem hs) hs

/-! ### Events that ask for no pass -/

/-- No pass is asked for or taken off, and what is right about a document stays right, if at most
one pane shows it. -/
structure Quiet (uri : String) (w w' : Window) : Prop where
  lint : w'.lint = w.lint
  fresh : w.copies uri ≤ 1 → w'.copies uri ≤ 1 → w.Fresh uri → w'.Fresh uri

theorem quiet_of_same (papers : w'.papers = w.papers) (notice : w'.notice = w.notice) :
    Quiet uri w w' :=
  ⟨congrArg Notice.lint notice, fun _ _ => (fresh_iff papers notice).mpr⟩

theorem Quiet.then_same (quiet : Quiet uri w w') (papers : w''.papers = w'.papers)
    (notice : w''.notice = w'.notice) : Quiet uri w w'' where
  lint := (congrArg Notice.lint notice).trans quiet.lint
  fresh before after fresh := by
    rw [← copies_papers, papers, copies_papers] at after
    exact (fresh_iff papers notice).mpr (quiet.fresh before after fresh)

theorem Quiet.trans (first : Quiet uri w w') (alone : w'.copies uri ≤ 1)
    (second : Quiet uri w' w'') : Quiet uri w w'' where
  lint := second.lint.trans first.lint
  fresh before after fresh := second.fresh alone after (first.fresh before alone fresh)

theorem quiet_openDocument (w : Window) (v : String) (path : Option Path) (text : Text) :
    Quiet uri w (w.openDocument v path text) where
  lint := congrArg Notice.lint (w.notice_openDocument v path text)
  fresh _ after fresh := by
    rw [← copies_papers] at after
    have opened := w.papers_openDocument v path text
    have new : (⟨v, loaded text, []⟩ : Sheet) ∈ (w.openDocument v path text).papers.sheets := by
      rw [opened]
      exact List.mem_append_right _ (List.mem_singleton_self _)
    refine fresh_of_receive (w.notice_openDocument v path text) ?_ ?_ fresh
    · rintro rfl s mem hs
      rw [Papers.eq_of_mem after mem new hs rfl]
    · intro other s mem hs
      rw [opened] at mem
      obtain old | new := List.mem_append.mp mem
      · exact old
      · exact absurd (hs.symm.trans (congrArg Sheet.uri (List.mem_singleton.mp new))) other

theorem quiet_dropPane (w : Window) (i : Nat) : Quiet uri w (w.dropPane i) := by
  cases at_i : w.panes[i]? with
  | none =>
      rw [dropPane, at_i]
      exact quiet_of_same rfl rfl
  | some pane =>
      refine ⟨congrArg Notice.lint (w.notice_dropPane at_i), fun before _ fresh => ?_⟩
      rw [← copies_papers] at before
      have left {s : Sheet} (mem : s ∈ (w.dropPane i).papers.sheets) (hs : s.uri = uri) :
          uri ≠ pane.uri ∧ s ∈ w.papers.sheets := by
        rw [w.papers_dropPane at_i] at mem
        obtain ⟨j, other, at_j⟩ := List.mem_eraseIdx_iff_getElem?.mp mem
        exact ⟨Papers.uri_ne_of_copies_le_one before (w.getElem?_sheets at_i) at_j hs other,
          List.mem_of_getElem? at_j⟩
      refine fresh_of_receive (w.notice_dropPane at_i) ?_ ?_ fresh
      · exact fun same s mem hs => absurd same (left mem hs).1
      · exact fun _ s mem hs => (left mem hs).2

theorem quiet_rename (w : Window) (i : Nat) (path : Path) : Quiet uri w (w.rename i path) := by
  cases at_i : w.panes[i]? with
  | none =>
      rw [rename, at_i]
      exact quiet_of_same rfl rfl
  | some old =>
      have renamed := w.papers_rename at_i path
      have noticed := w.notice_rename at_i path
      refine ⟨congrArg Notice.lint noticed, fun before after fresh s mem hs => ?_⟩
      rw [← copies_papers] at before after
      have place := w.getElem?_sheets at_i
      have new : { old.sheet with uri := w.fileUri path } ∈ (w.rename i path).papers.sheets := by
        rw [renamed]
        exact List.mem_of_getElem? (List.getElem?_set_self (List.getElem?_eq_some_iff.mp place).1)
      rw [noticed, Notice.found, KeyMap.get?_put]
      split
      case isTrue same =>
          rw [Papers.eq_of_mem after mem new hs same.symm]
          rfl
      case isFalse other =>
          rw [renamed] at mem
          obtain rfl | ⟨j, apart, at_j⟩ := Papers.mem_set_cases mem
          · exact absurd hs.symm other
          · have elsewhere : uri ≠ old.uri :=
              Papers.uri_ne_of_copies_le_one before place at_j hs apart
            rw [KeyMap.get?_erase, if_neg elsewhere, KeyMap.get?_put, if_neg elsewhere]
            exact fresh s (List.mem_of_getElem? at_j) hs

theorem quiet_revalidate (w : Window) (i : Nat) : Quiet uri w (w.revalidate i) := by
  cases at_i : w.panes[i]? with
  | none =>
      rw [revalidate, at_i]
      exact quiet_of_same rfl rfl
  | some pane =>
      have noticed := w.notice_revalidate at_i
      refine ⟨congrArg Notice.lint noticed, fun before _ fresh => ?_⟩
      rw [← copies_papers] at before
      refine fresh_of_receive noticed ?_ ?_ fresh
      · rintro rfl s mem hs
        rw [w.sheets_revalidate] at mem
        rw [Papers.eq_of_mem before mem (List.mem_of_getElem? (w.getElem?_sheets at_i)) hs rfl]
        rfl
      · intro _ s mem _
        rwa [w.sheets_revalidate] at mem

/-- Validating the pane of a document makes it right, whatever was held before. -/
theorem fresh_revalidate {i : Nat} {pane : Pane} (at_i : w.panes[i]? = some pane)
    (alone : w.copies pane.uri ≤ 1) : (w.revalidate i).Fresh pane.uri := by
  intro s mem hs
  rw [← copies_papers] at alone
  rw [w.sheets_revalidate] at mem
  rw [w.notice_revalidate at_i, Notice.found_receive, if_pos rfl,
    Papers.eq_of_mem alone mem (List.mem_of_getElem? (w.getElem?_sheets at_i)) hs rfl]
  rfl

/-- The current document is validated as any other is, and its symbols are shown. -/
theorem validateCurrent_eq {pane : Pane} (current : w.pane? = some pane) :
    w.validateCurrent = (w.revalidate w.current).refreshOutline pane.uri := by
  have at_current : w.panes[w.current]? = some pane := current
  have synced : w.edit Desk.sync =
      { w with session := w.session.update pane.uri pane.buffer.text } := by
    obtain ⟨inside, here⟩ := List.getElem?_eq_some_iff.mp at_current
    have kept : w.panes.set w.current pane = w.panes := by
      rw [← here, List.set_getElem_self]
    simp only [edit, onDesk, current]
    exact congrArg (fun panes => ({ w with
      session := w.session.update pane.uri pane.buffer.text
      panes := panes } : Window)) kept
  simp only [validateCurrent, uri?, current, Option.map_some, revalidate, at_current, synced]

theorem quiet_validateCurrent (w : Window) : Quiet uri w w.validateCurrent := by
  cases current : w.pane? with
  | none =>
      rw [validateCurrent, uri?, current]
      exact quiet_of_same rfl rfl
  | some pane =>
      rw [validateCurrent_eq current]
      exact (w.quiet_revalidate w.current).then_same rfl rfl

/-- After all panes of a list are validated, what is held about a document is right if one of them
shows it, or if it was right before. -/
theorem fresh_revalidate_all (is : List Nat) (alone : w.copies uri ≤ 1)
    (each : w.Fresh uri ∨ ∃ i ∈ is, ∃ s, w.papers.sheets[i]? = some s ∧ s.uri = uri) :
    (is.foldl revalidate w).Fresh uri := by
  induction is generalizing w with
  | nil =>
      obtain fresh | ⟨i, mem, _⟩ := each
      · exact fresh
      · exact absurd mem List.not_mem_nil
  | cons i rest ih =>
      have alone' : (w.revalidate i).copies uri ≤ 1 := (w.copies_revalidate i).symm ▸ alone
      refine ih alone' ?_
      rw [w.sheets_revalidate]
      obtain fresh | ⟨j, mem, s, at_j, hs⟩ := each
      · exact .inl ((w.quiet_revalidate i).fresh alone alone' fresh)
      · obtain rfl | later := List.mem_cons.mp mem
        · rw [papers, List.getElem?_map] at at_j
          obtain ⟨pane, here, rfl⟩ := Option.map_eq_some_iff.mp at_j
          obtain rfl : pane.uri = uri := hs
          exact .inl (fresh_revalidate here alone)
        · exact .inr ⟨j, later, s, at_j, hs⟩

theorem quiet_configure (w : Window) (c : Config) : Quiet uri w (w.configure c) := by
  let configured : Window := { w with
    session := { w.session with config := c }
    preferences := w.preferences.putConfig c }
  have lint (is : List Nat) (w : Window) : (is.foldl revalidate w).lint = w.lint := by
    induction is generalizing w with
    | nil => rfl
    | cons i rest ih =>
        have here : Quiet uri w (w.revalidate i) := w.quiet_revalidate i
        exact (ih _).trans here.lint
  have all : Quiet uri w ((List.range w.panes.length).foldl revalidate configured) := by
    refine ⟨lint _ configured, fun alone _ _ => fresh_revalidate_all _ alone ?_⟩
    by_cases shown : ∃ s ∈ configured.papers.sheets, s.uri = uri
    · obtain ⟨s, mem, hs⟩ := shown
      obtain ⟨i, at_i⟩ := List.mem_iff_getElem?.mp mem
      have inside : i < w.panes.length := by
        have := (List.getElem?_eq_some_iff.mp at_i).1
        rwa [papers, List.length_map] at this
      exact .inr ⟨i, List.mem_range.mpr inside, s, at_i, hs⟩
    · exact .inl fun s mem hs => absurd ⟨s, mem, hs⟩ shown
  exact all.then_same (papers_note _ _ _) (notice_note _ _ _)

/-! ### Saving and closing -/

theorem quiet_write (w : Window) (i : Nat) (pane : Pane) (path : Path) :
    Quiet uri w (w.write i pane path).1 := by
  unfold write
  split
  · exact quiet_of_same rfl rfl
  · exact quiet_of_same (w.papers_note _ _) (w.notice_note _ _)
  case h_3 directory _ =>
    let written : Window := { w with directory := directory }
    have renamed : Quiet uri w
        (if pane.path = some path then written else written.rename i path) := by
      have renamed : Quiet uri written (written.rename i path) := written.quiet_rename i path
      split
      · exact quiet_of_same rfl rfl
      · exact ⟨renamed.lint, renamed.fresh⟩
    refine renamed.then_same ?_ ?_
    · simp only [papers_note, papers_rememberFile]
      exact papers_modifyPane_of_sheet _ i fun _ => rfl
    · simp only [notice_note, notice_rememberFile]
      rfl

theorem quiet_save (w : Window) (t : Talk) (i : Nat) (askAlways : Bool) :
    Quiet uri w (w.save t i askAlways).1 := by
  obtain ⟨_, same, _⟩ | ⟨pane, path, _, _, same, _⟩ := w.save_cases t i askAlways
  · rw [same]
    exact quiet_of_same rfl rfl
  · rw [same]
    exact w.quiet_write i pane path

theorem quiet_confirmClose (w : Window) (t : Talk) (i : Nat) :
    Quiet uri w (w.confirmClose t i).1 := by
  obtain ⟨kept, _⟩ | ⟨saved, _⟩ := w.confirmClose_cases t i
  · rw [kept]
    exact quiet_of_same rfl rfl
  · rw [saved]
    exact w.quiet_save _ i false

/-- Closing a pane is quiet, if at most one pane shows the document also after the question whether
to save. -/
theorem quiet_closePane (w : Window) (t : Talk) (i : Nat)
    (asked : (w.confirmClose t i).1.copies uri ≤ 1) : Quiet uri w (w.closePane t i).1 := by
  obtain ⟨kept, _⟩ | ⟨dropped, _⟩ := w.closePane_cases t i
  · rw [kept]
    exact w.quiet_confirmClose t i
  · rw [dropped]
    exact (w.quiet_confirmClose t i).trans asked (quiet_dropPane _ i)

theorem quiet_confirmAll (n : Nat) (t : Talk)
    (confirming : ∀ asked ∈ w.confirming t n, asked.copies uri ≤ 1) :
    Quiet uri w (w.confirmAll t n).1 := by
  induction n generalizing w t with
  | zero => exact quiet_of_same rfl rfl
  | succ n ih =>
      have confirmed : Quiet uri w (w.confirmClose t n).1 := w.quiet_confirmClose t n
      obtain ⟨ended, _, _⟩ | ⟨later, goesOn, moments, _⟩ := w.confirmAll_succ_cases t n
      · rw [ended]
        exact confirmed
      · rw [moments] at confirming
        obtain ⟨asked, rest⟩ := List.forall_mem_cons.mp confirming
        rw [goesOn]
        exact confirmed.trans asked (ih later rest)

/-! ### Events that edit -/

/-- Nothing is published, no pane but the current one changes, and where the text of a pane becomes
another, its document waits for a pass. -/
structure Edits (w w' : Window) : Prop where
  config : w'.notice.config = w.notice.config
  published : w'.notice.published = w.notice.published
  others : ∀ s, w.uri? ≠ some s.uri → (s ∈ w'.papers.sheets ↔ s ∈ w.papers.sheets)
  sheets : ∀ s ∈ w'.papers.sheets, w'.lint = some s.uri ∨
    ∃ t ∈ w.papers.sheets, t.uri = s.uri ∧ t.text = s.text
  lint : w'.lint = w.lint ∨ w'.lint = w.uri?

theorem edits_refl (w : Window) : Edits w w :=
  ⟨rfl, rfl, fun _ _ => .rfl, fun s mem => .inr ⟨s, mem, rfl, rfl⟩, .inl rfl⟩

theorem Edits.then_same (edits : Edits w w') (papers : w''.papers = w'.papers)
    (notice : w''.notice = w'.notice) : Edits w w'' := by
  have lint : w''.lint = w'.lint := congrArg Notice.lint notice
  refine ⟨?_, ?_, ?_, ?_, ?_⟩
  · rw [notice, edits.config]
  · rw [notice, edits.published]
  · rw [papers]
    exact edits.others
  · rw [papers, lint]
    exact edits.sheets
  · rw [lint]
    exact edits.lint

theorem edits_edit (w : Window) {f : Desk → Desk} (owes : ∀ d : Desk, d.Owes (f d)) :
    Edits w (w.edit f) := by
  unfold edit onDesk
  split
  · exact w.edits_refl
  case h_2 pane current =>
    have uri : w.uri? = some pane.uri := congrArg (Option.map Pane.uri) current
    let d : Desk := { w.toSurroundings with pane := pane }
    have owed : d.Owes (f d) := owes d
    have place := w.getElem?_sheets current
    have same : (f d).pane.sheet.uri = pane.uri := owed.uri
    refine ⟨owed.config, owed.published, ?_, ?_, ?_⟩
    · intro s away
      have apart : s.uri ≠ pane.uri := fun h => away (uri.trans (congrArg some h.symm))
      simp only [papers, List.map_set]
      constructor
      · intro mem
        obtain rfl | ⟨j, _, at_j⟩ := Papers.mem_set_cases mem
        · exact absurd same apart
        · exact List.mem_of_getElem? at_j
      · intro mem
        obtain ⟨j, at_j⟩ := List.mem_iff_getElem?.mp mem
        have other : w.current ≠ j := by
          rintro rfl
          exact apart (congrArg Sheet.uri (Option.some.inj (at_j.symm.trans place)))
        exact List.mem_of_getElem? ((List.getElem?_set_ne other).trans at_j)
    · intro s mem
      simp only [papers, List.map_set] at mem
      obtain rfl | ⟨j, _, at_j⟩ := Papers.mem_set_cases mem
      · refine owed.pass.imp (fun due => due.trans (congrArg some same.symm)) fun kept => ?_
        exact ⟨pane.sheet, List.mem_of_getElem? place, same.symm, kept.2.symm⟩
      · exact .inr ⟨s, List.mem_of_getElem? at_j, rfl, rfl⟩
    · exact owed.pass.symm.imp (fun kept => kept.1) fun due => due.trans uri.symm

/-! ### One event -/

/-- What an event does to what is held about a document. -/
inductive Treats (uri : String) (w : Window) : Window → Prop
  | quiet {w' : Window} : Quiet uri w w' → Treats uri w w'
  | edits {w' : Window} : Edits w w' → Treats uri w w'
  | pass : Treats uri w w.lintPass

theorem treats_step (w : Window) (t : Talk) (e : Event)
    (between : ∀ v ∈ w.between t e, v.copies uri ≤ 1) : Treats uri w (w.step t e).1 := by
  have deed := w.deed_step t e
  generalize (w.step t e).1 = w', w.filings t e = filings at deed
  cases deed with
  | shows core notice => exact .quiet (quiet_of_same (papers_of_core core) notice)
  | edits f owes _ core notice =>
      exact .edits ((w.edits_edit owes).then_same (papers_of_core core) notice)
  | opens uri path text core notice =>
      exact .quiet ((w.quiet_openDocument uri path text).then_same (papers_of_core core) notice)
  | passes => exact .pass
  | validates => exact .quiet w.quiet_validateCurrent
  | configures c => exact .quiet (w.quiet_configure c)
  | saves askAlways core notice =>
      exact .quiet ((w.quiet_save t _ askAlways).then_same (papers_of_core core) notice)
  | @closes index i closing exists? =>
      subst closing
      refine .quiet (w.quiet_closePane t i (between _ ?_))
      rw [Window.between, exists?]
      exact List.mem_singleton_self _
  | leaves closing =>
      subst closing
      exact .quiet (quiet_confirmAll w.panes.length t between)

end Window

end Dragonstone.Editor
