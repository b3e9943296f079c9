/-
# Buffers and stored texts agree

Everything the editor knows about a document it computes from the stored text, and what the user
sees and saves is the buffer.  They agree for every pane whose document no other pane has ever
shown, whatever the user does: opening and closing, typing, completing, formatting, saving under
other names and changing the configuration, in any order and any number of times.

The condition is needed.  A window opens a file again that is open already, and saves a document
under the name of another, without noticing that two panes then share one stored text.  It has to
hold at every moment and not only between events, because closing a pane or the window may first
save panes under other names.  That no carriage return is typed is what a text widget sees to: it
knows line feeds only.
-/

import Dragonstone.Proofs.Editor.Deed

namespace Dragonstone.Editor

/-- An event with the answers to the dialogs that it shows. -/
abbrev Turn := Event × List Answer

namespace Window

/-- How many panes show a document. -/
def copies (w : Window) (uri : String) : Nat :=
  (w.panes.map Pane.uri).count uri

/-! ### The moments of a run -/

/-- The windows after each of the questions about the first `n` panes. -/
def confirming (w : Window) (t : Talk) : Nat → List Window
  | 0 => []
  | n + 1 =>
    match w.confirmClose t n with
    | (w, t, .ok true) => w :: w.confirming t n
    | (w, _, _) => [w]

/-- The windows that are there while an event is dealt with.  Only closing takes more than one
step: first panes may be saved, then they are closed. -/
def between (w : Window) (t : Talk) : Event → List Window
  | .closePane index => (index.toNat?.map fun i => (w.confirmClose t i).1).toList
  | .closeWindow => w.confirming t w.panes.length
  | _ => []

/-- The window after a turn. -/
def turned (w : Window) (turn : Turn) : Window :=
  (w.step ⟨turn.2, []⟩ turn.1).1

/-- The window after a run. -/
def after (w : Window) (turns : List Turn) : Window :=
  turns.foldl turned w

/-- All windows of a run, from the first to the last. -/
def history (w : Window) : List Turn → List Window
  | [] => [w]
  | turn :: rest => w :: w.between ⟨turn.2, []⟩ turn.1 ++ (w.turned turn).history rest

theorem mem_history_self (w : Window) (turns : List Turn) : w ∈ w.history turns := by
  cases turns <;> exact List.mem_cons_self

variable {w w' : Window} {uri : String}

theorem copies_papers (w : Window) (uri : String) : w.papers.copies uri = w.copies uri := by
  rw [Papers.copies, papers, List.map_map]
  rfl

/-! ### Saving -/

theorem move_write (w : Window) (i : Nat) (pane : Pane) (path : Path) :
    Papers.Move w.papers (w.write i pane path).1.papers := by
  unfold write
  split
  · exact .nothing _
  · rw [papers_note]
    exact .nothing _
  case h_3 directory _ =>
    let written : Window := { w with directory := directory }
    simp only [papers_note, papers_rememberFile]
    rw [papers_modifyPane_of_sheet]
    · split
      · exact .nothing _
      · exact written.move_rename i path
    · exact fun _ => rfl

theorem move_save (w : Window) (t : Talk) (i : Nat) (askAlways : Bool) :
    Papers.Move w.papers (w.save t i askAlways).1.papers := by
  obtain ⟨_, same, _⟩ | ⟨pane, path, _, _, same, _⟩ := w.save_cases t i askAlways
  · rw [same]
    exact .nothing _
  · rw [same]
    exact w.move_write i pane path

theorem move_confirmClose (w : Window) (t : Talk) (i : Nat) :
    Papers.Move w.papers (w.confirmClose t i).1.papers := by
  obtain ⟨kept, _⟩ | ⟨saved, _⟩ := w.confirmClose_cases t i
  · rw [kept]
    exact .nothing _
  · rw [saved]
    exact w.move_save _ i false

/-! ### What events keep -/

/-- What is right about a document stays right, if at most one pane shows it. -/
def Keeps (uri : String) (w w' : Window) : Prop :=
  w.copies uri ≤ 1 → w'.copies uri ≤ 1 → w.papers.Right uri → w'.papers.Right uri

theorem keeps_of_move
    (move : (∀ s ∈ w.papers.sheets, s.IsPlain) → Papers.Move w.papers w'.papers) :
    Keeps uri w w' := by
  intro before after right
  rw [← copies_papers] at before after
  exact (move right.plain).right before after right

theorem keeps_of_papers (same : w'.papers = w.papers) : Keeps uri w w' :=
  fun _ _ right => same ▸ right

theorem copies_revalidate (w : Window) (i : Nat) : (w.revalidate i).copies uri = w.copies uri := by
  rw [← copies_papers, ← copies_papers, Papers.copies, sheets_revalidate, Papers.copies]

theorem right_revalidate_all (is : List Nat) (alone : w.copies uri ≤ 1)
    (right : w.papers.Right uri) : (is.foldl revalidate w).papers.Right uri := by
  induction is generalizing w with
  | nil => exact right
  | cons i rest ih =>
      have alone' : (w.revalidate i).copies uri ≤ 1 := (w.copies_revalidate i).symm ▸ alone
      exact ih alone' (keeps_of_move (w.move_revalidate i) alone alone' right)

theorem keeps_configure (w : Window) (c : Config) : Keeps uri w (w.configure c) := by
  intro alone _ right
  unfold configure
  rw [papers_note]
  exact right_revalidate_all _ alone right

theorem keeps_validateCurrent (w : Window) : Keeps uri w w.validateCurrent := by
  unfold validateCurrent
  split
  · exact keeps_of_papers rfl
  · refine keeps_of_move fun plain => ?_
    rw [papers_refreshOutline, papers_validate]
    exact w.move_edit (fun d h => h.leads_sync) plain

/-- Asking about several panes ends with the first question, or goes on with the others. -/
theorem confirmAll_succ_cases (w : Window) (t : Talk) (n : Nat) :
    ((w.confirmAll t (n + 1)).1 = (w.confirmClose t n).1 ∧
        w.confirming t (n + 1) = [(w.confirmClose t n).1] ∧
        w.closingAll t (n + 1) = w.asking t n) ∨
      ∃ later, (w.confirmAll t (n + 1)).1 = ((w.confirmClose t n).1.confirmAll later n).1 ∧
        w.confirming t (n + 1) =
          (w.confirmClose t n).1 :: (w.confirmClose t n).1.confirming later n ∧
        w.closingAll t (n + 1) =
          w.asking t n ++ (w.confirmClose t n).1.closingAll later n := by
  rw [confirmAll, confirming, closingAll]
  rcases w.confirmClose t n with ⟨asked, later, answer⟩
  cases answer with
  | error fault => exact .inl ⟨rfl, rfl, rfl⟩
  | ok closing =>
      cases closing with
      | false => exact .inl ⟨rfl, rfl, rfl⟩
      | true => exact .inr ⟨later, rfl, rfl, rfl⟩

/-- Closing a pane keeps what is right, if at most one pane shows the document also after the
question whether to save. -/
theorem keeps_closePane (w : Window) (t : Talk) (i : Nat)
    (asked : (w.confirmClose t i).1.copies uri ≤ 1) : Keeps uri w (w.closePane t i).1 := by
  intro before after right
  have confirmed : (w.confirmClose t i).1.papers.Right uri :=
    keeps_of_move (fun _ => w.move_confirmClose t i) before asked right
  obtain ⟨kept, _⟩ | ⟨dropped, _⟩ := w.closePane_cases t i
  · rw [kept]
    exact confirmed
  · rw [dropped] at after ⊢
    exact keeps_of_move (fun _ => move_dropPane _ i) asked after confirmed

theorem right_confirmAll (n : Nat) (t : Talk) (alone : w.copies uri ≤ 1)
    (confirming : ∀ asked ∈ w.confirming t n, asked.copies uri ≤ 1) (right : w.papers.Right uri) :
    (w.confirmAll t n).1.papers.Right uri := by
  induction n generalizing w t with
  | zero => exact right
  | succ n ih =>
      have confirmed (asked : (w.confirmClose t n).1.copies uri ≤ 1) :
          (w.confirmClose t n).1.papers.Right uri :=
        keeps_of_move (fun _ => w.move_confirmClose t n) alone asked right
      obtain ⟨ended, moments, _⟩ | ⟨later, goesOn, moments, _⟩ := w.confirmAll_succ_cases t n
      · rw [moments] at confirming
        rw [ended]
        exact confirmed (confirming _ (List.mem_singleton_self _))
      · rw [moments] at confirming
        obtain ⟨asked, rest⟩ := List.forall_mem_cons.mp confirming
        rw [goesOn]
        exact ih later asked rest (confirmed asked)

/-- An event keeps what is right about a document that at most one pane shows, as long as what is
typed has no carriage return. -/
theorem keeps_step (w : Window) (t : Talk) (e : Event) (typed : '\r' ∉ e.typedText)
    (between : ∀ v ∈ w.between t e, v.copies uri ≤ 1) : Keeps uri w (w.step t e).1 := by
  have deed := w.deed_step t e
  generalize (w.step t e).1 = w', w.filings t e = filings at deed
  cases deed with
  | shows core _ => exact keeps_of_papers (papers_of_core core)
  | edits f _ leads core _ =>
      refine keeps_of_move fun plain => ?_
      rw [papers_of_core core]
      exact w.move_edit (leads typed) plain
  | opens uri path text core _ =>
      refine keeps_of_move fun _ => ?_
      rw [papers_of_core core]
      exact w.move_openDocument uri path text
  | passes => exact keeps_of_papers w.papers_lintPass
  | validates => exact w.keeps_validateCurrent
  | configures c => exact w.keeps_configure c
  | saves askAlways core _ =>
      refine keeps_of_move fun _ => ?_
      rw [papers_of_core core]
      exact w.move_save t _ askAlways
  | @closes index i closing exists? =>
      subst closing
      refine w.keeps_closePane t i (between _ ?_)
      rw [Window.between, exists?]
      exact List.mem_singleton_self _
  | leaves closing =>
      subst closing
      exact fun alone _ right => right_confirmAll w.panes.length t alone between right

theorem right_start (place : Place) (preferences : Preferences) (directory : Directory)
    (uri : String) : (start place preferences directory).papers.Right uri where
  plain _ mem := absurd mem List.not_mem_nil
  agrees _ mem := absurd mem List.not_mem_nil

/-- A run keeps what is right about a document that at most one pane shows at every moment. -/
theorem right_after {turns : List Turn} (typed : ∀ turn ∈ turns, '\r' ∉ turn.1.typedText)
    (alone : ∀ v ∈ w.history turns, v.copies uri ≤ 1) (right : w.papers.Right uri) :
    (w.after turns).papers.Right uri := by
  induction turns generalizing w with
  | nil => exact right
  | cons turn rest ih =>
      obtain ⟨typedNow, typedLater⟩ := List.forall_mem_cons.mp typed
      obtain ⟨before, later⟩ := List.forall_mem_cons.mp alone
      obtain ⟨between, after⟩ := List.forall_mem_append.mp later
      have now : (w.turned turn).copies uri ≤ 1 := after _ (mem_history_self _ _)
      exact ih typedLater after (w.keeps_step _ _ typedNow between before now right)

end Window

open Window

/-- A run in which two documents are made, one of them is typed into, saved under a name and
formatted, and the other one is closed. -/
def sampleRun : List Turn :=
  [(.openText "x".toList, []), (.act .newFile, []), (.insert "if y\nz\nend".toList, []),
    (.act .saveAs, [.text "b.ds"]), (.act .format, []), (.closePane 0, [])]

/-- A run in which a file is opened twice and one of its two panes is closed. -/
def sharedRun : List Turn :=
  [(.openPath (.ofString "a.ds"), []), (.openPath (.ofString "a.ds"), []), (.closePane 1, [])]

def sharedDirectory : Directory :=
  .ofList [("a.ds", .file (Utf8.encode "x\n".toList))]

end Dragonstone.Editor
