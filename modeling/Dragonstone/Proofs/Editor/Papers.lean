/-
# Sheets and stored texts

A window holds one sheet for each of its panes, and one stored text for each uri.  Nothing forces
the two to agree: panes are free to show the same document, and each of them writes to the one
stored text.  What a window can do to sheets and stored texts are four moves: a sheet is opened,
closed, given another uri, or edited.

As long as no two sheets have a uri, each of these moves keeps the stored text of this uri equal to
the text of the sheet.  With two sheets none of them does: closing one takes the stored text from
the other, and opening or editing one leaves the other with an old text.
-/

import Dragonstone.Proofs.Editor.Core
import Dragonstone.Proofs.Editor.Desk

namespace Dragonstone.Editor

/-- The stored texts and the sheets of a window. -/
structure Papers where
  stored : Store
  sheets : List Sheet

namespace Papers

/-- How many sheets have a uri. -/
def copies (a : Papers) (uri : String) : Nat :=
  (a.sheets.map Sheet.uri).count uri

/-- What can happen to sheets and stored texts. -/
inductive Move : Papers → Papers → Prop
  | nothing (a : Papers) : Move a a
  | opened (stored : Store) (sheets : List Sheet) {s : Sheet} (plain : s.IsPlain) :
      Move ⟨stored, sheets⟩ ⟨stored.put s.uri s.text, sheets ++ [s]⟩
  | closed (stored : Store) {sheets : List Sheet} {i : Nat} {s : Sheet}
      (at_i : sheets[i]? = some s) :
      Move ⟨stored, sheets⟩ ⟨stored.erase s.uri, sheets.eraseIdx i⟩
  | renamed (stored : Store) {sheets : List Sheet} {i : Nat} {s : Sheet}
      (at_i : sheets[i]? = some s) (uri : String) :
      Move ⟨stored, sheets⟩ ⟨(stored.erase s.uri).put uri s.text, sheets.set i { s with uri }⟩
  | edited {stored stored' : Store} {sheets : List Sheet} {i : Nat} {s s' : Sheet}
      (at_i : sheets[i]? = some s) (edited : Edited stored s stored' s') :
      Move ⟨stored, sheets⟩ ⟨stored', sheets.set i s'⟩

/-- No sheet has a carriage return, and the sheets of a uri have the text that is stored for it. -/
structure Right (a : Papers) (uri : String) : Prop where
  plain : ∀ s ∈ a.sheets, s.IsPlain
  agrees : ∀ s ∈ a.sheets, s.uri = uri → a.stored.get? uri = some s.text

/-- Where a uri has at most one sheet, its sheets have the same place. -/
theorem eq_of_copies_le_one {a : Papers} {uri : String} (alone : a.copies uri ≤ 1) {i j : Nat}
    {s t : Sheet} (at_i : a.sheets[i]? = some s) (at_j : a.sheets[j]? = some t)
    (hs : s.uri = uri) (ht : t.uri = uri) : i = j := by
  -- Of two places one is in front of the other, and a cut between them counts the uri twice.
  have apart {i j : Nat} {s t : Sheet} (at_i : a.sheets[i]? = some s)
      (at_j : a.sheets[j]? = some t) (hs : s.uri = uri) (ht : t.uri = uri) : ¬ i < j := by
    intro lt
    obtain ⟨k, rfl⟩ : ∃ k, j = i + 1 + k := Nat.exists_eq_add_of_le lt
    have front : uri ∈ (a.sheets.take (i + 1)).map Sheet.uri :=
      List.mem_map.mpr
        ⟨s, List.mem_of_getElem? ((List.getElem?_take_of_lt i.lt_succ_self).trans at_i), hs⟩
    have back : uri ∈ (a.sheets.drop (i + 1)).map Sheet.uri :=
      List.mem_map.mpr ⟨t, List.mem_of_getElem? (List.getElem?_drop.trans at_j), ht⟩
    have two : 1 + 1 ≤ a.copies uri := by
      rw [copies, ← List.take_append_drop (i + 1) a.sheets, List.map_append, List.count_append]
      exact Nat.add_le_add (List.count_pos_iff.mpr front) (List.count_pos_iff.mpr back)
    omega
  have := apart at_i at_j hs ht
  have := apart at_j at_i ht hs
  omega

/-- A sheet at another place than one with the uri has another uri. -/
theorem uri_ne_of_copies_le_one {a : Papers} {uri : String} (alone : a.copies uri ≤ 1) {i j : Nat}
    {s t : Sheet} (at_i : a.sheets[i]? = some s) (at_j : a.sheets[j]? = some t)
    (ht : t.uri = uri) (other : j ≠ i) : uri ≠ s.uri :=
  fun same => other (eq_of_copies_le_one alone at_j at_i ht same.symm)

theorem mem_set_cases {sheets : List Sheet} {i : Nat} {s' t : Sheet} (h : t ∈ sheets.set i s') :
    t = s' ∨ ∃ j, j ≠ i ∧ sheets[j]? = some t := by
  obtain ⟨j, at_j⟩ := List.mem_iff_getElem?.mp h
  rw [List.getElem?_set] at at_j
  split at at_j
  · split at at_j
    · exact .inl (Option.some.inj at_j).symm
    · cases at_j
  case isFalse other => exact .inr ⟨j, Ne.symm other, at_j⟩

theorem Move.plain {a b : Papers} (move : Move a b) (h : ∀ s ∈ a.sheets, s.IsPlain) :
    ∀ s ∈ b.sheets, s.IsPlain := by
  intro t mem
  cases move with
  | nothing => exact h t mem
  | opened stored sheets plain =>
      obtain mem | mem := List.mem_append.mp mem
      · exact h t mem
      · exact List.mem_singleton.mp mem ▸ plain
  | closed stored at_i => exact h t (List.mem_of_mem_eraseIdx mem)
  | renamed stored at_i new =>
      obtain rfl | ⟨j, _, at_j⟩ := mem_set_cases mem
      · have hs := h _ (List.mem_of_getElem? at_i)
        exact ⟨hs.text, hs.items⟩
      · exact h t (List.mem_of_getElem? at_j)
  | edited at_i edited =>
      obtain rfl | ⟨j, _, at_j⟩ := mem_set_cases mem
      · exact edited.plain
      · exact h t (List.mem_of_getElem? at_j)

/-- A move keeps a uri's sheets and its stored text equal, if there is at most one sheet of it
before and after. -/
theorem Move.agrees {a b : Papers} (move : Move a b) {uri : String} (before : a.copies uri ≤ 1)
    (after : b.copies uri ≤ 1)
    (h : ∀ s ∈ a.sheets, s.uri = uri → a.stored.get? uri = some s.text) :
    ∀ s ∈ b.sheets, s.uri = uri → b.stored.get? uri = some s.text := by
  intro t mem ht
  cases move with
  | nothing => exact h t mem ht
  | @opened stored sheets s plain =>
      show (stored.put s.uri s.text).get? uri = some t.text
      rw [KeyMap.get?_put]
      obtain ⟨j, at_j⟩ := List.mem_iff_getElem?.mp mem
      have last : (sheets ++ [s])[sheets.length]? = some s := List.getElem?_concat_length
      split
      case isTrue same =>
        obtain rfl := eq_of_copies_le_one after at_j last ht same.symm
        rw [Option.some.inj (at_j.symm.trans last)]
      case isFalse other =>
        obtain mem | mem := List.mem_append.mp mem
        · exact h t mem ht
        · exact absurd (List.mem_singleton.mp mem ▸ ht.symm) other
  | @closed stored sheets i s at_i =>
      show (stored.erase s.uri).get? uri = some t.text
      obtain ⟨j, other, at_j⟩ := List.mem_eraseIdx_iff_getElem?.mp mem
      rw [KeyMap.get?_erase, if_neg (uri_ne_of_copies_le_one before at_i at_j ht other)]
      exact h t (List.mem_of_getElem? at_j) ht
  | @renamed stored sheets i s at_i new =>
      show ((stored.erase s.uri).put new s.text).get? uri = some t.text
      obtain rfl | ⟨j, other, at_j⟩ := mem_set_cases mem
      · rw [KeyMap.get?_put, if_pos ht.symm]
      · -- The renamed sheet has neither its old nor its new uri in common with this one.
        have inside : i < sheets.length := (List.getElem?_eq_some_iff.mp at_i).1
        have now_i : (sheets.set i { s with uri := new })[i]? = some { s with uri := new } :=
          List.getElem?_set_self inside
        have now_j : (sheets.set i { s with uri := new })[j]? = some t :=
          (List.getElem?_set_ne (Ne.symm other)).trans at_j
        rw [KeyMap.get?_put, if_neg (uri_ne_of_copies_le_one after now_i now_j ht other),
          KeyMap.get?_erase, if_neg (uri_ne_of_copies_le_one before at_i at_j ht other)]
        exact h t (List.mem_of_getElem? at_j) ht
  | @edited stored stored' sheets i s s' at_i edited =>
      show stored'.get? uri = some t.text
      obtain rfl | ⟨j, other, at_j⟩ := mem_set_cases mem
      · have hs : s.uri = uri := edited.uri.symm.trans ht
        rw [← hs]
        exact edited.agrees (hs ▸ h s (List.mem_of_getElem? at_i) hs)
      · rw [edited.others uri (uri_ne_of_copies_le_one before at_i at_j ht other)]
        exact h t (List.mem_of_getElem? at_j) ht

theorem Move.right {a b : Papers} (move : Move a b) {uri : String} (before : a.copies uri ≤ 1)
    (after : b.copies uri ≤ 1) (h : a.Right uri) : b.Right uri :=
  ⟨move.plain h.plain, move.agrees before after h.agrees⟩

end Papers

/-! ### The papers of a window -/

/-- The papers that are in a core. -/
def Core.papers (c : Core) : Papers :=
  ⟨c.stored, c.panes.map Pane.sheet⟩

namespace Window

def papers (w : Window) : Papers :=
  ⟨w.session.documents, w.panes.map Pane.sheet⟩

theorem papers_core (w : Window) : w.core.papers = w.papers := by
  rw [Core.papers, core, List.map_map]
  rfl

theorem papers_of_core {w w' : Window} (same : w'.core = w.core) : w'.papers = w.papers := by
  rw [← papers_core, same, papers_core]

variable (w : Window)

/-- A pane is changed apart from its sheet. -/
theorem papers_modifyPane_of_sheet (i : Nat) {f : Pane → Pane}
    (same : ∀ p, (f p).sheet = p.sheet) : (w.modifyPane i f).papers = w.papers := by
  have sheets := map_modify_pane Pane.sheet (g := id) same w.panes i
  rw [List.modify_id] at sheets
  exact congrArg (Papers.mk w.session.documents) sheets

@[simp] theorem papers_note (level : LogLevel) (message : String) :
    (w.note level message).papers = w.papers :=
  papers_of_core (w.core_note level message)

@[simp] theorem papers_refreshOutline (uri : String) : (w.refreshOutline uri).papers = w.papers :=
  rfl

@[simp] theorem papers_publish (p : Publication) : (w.publish p).papers = w.papers :=
  papers_of_core (w.core_publish p)

@[simp] theorem papers_validate (uri : String) : (w.validate uri).papers = w.papers :=
  w.papers_publish _

@[simp] theorem papers_rememberFile (path : Path) : (w.rememberFile path).papers = w.papers :=
  rfl

@[simp] theorem papers_lintPass : w.lintPass.papers = w.papers :=
  papers_of_core w.core_lintPass

theorem papers_addPane (p : Pane) :
    (w.addPane p).papers = ⟨w.papers.stored, w.papers.sheets ++ [p.sheet]⟩ := by
  rw [← papers_core, core_addPane, ← w.papers_core]
  simp [Core.papers, Pane.sheet, Pane.core]

/-! ### Moves of a window -/

theorem getElem?_sheets {i : Nat} {p : Pane} (at_i : w.panes[i]? = some p) :
    w.papers.sheets[i]? = some p.sheet := by
  rw [papers, List.getElem?_map, at_i]
  rfl

theorem papers_openDocument (uri : String) (path : Option Path) (text : Text) :
    (w.openDocument uri path text).papers =
      ⟨w.papers.stored.put uri (loaded text), w.papers.sheets ++ [⟨uri, loaded text, []⟩]⟩ := by
  rw [← papers_core, core_openDocument, ← w.papers_core]
  simp [Core.papers, Pane.sheet, openedPane]

theorem move_openDocument (uri : String) (path : Option Path) (text : Text) :
    Papers.Move w.papers (w.openDocument uri path text).papers := by
  rw [papers_openDocument]
  exact .opened _ _ (s := ⟨uri, loaded text, []⟩)
    ⟨not_mem_loaded text, fun _ mem => absurd mem List.not_mem_nil⟩

theorem papers_dropPane {i : Nat} {pane : Pane} (at_i : w.panes[i]? = some pane) :
    (w.dropPane i).papers = ⟨w.papers.stored.erase pane.uri, w.papers.sheets.eraseIdx i⟩ := by
  rw [← papers_core, w.core_dropPane at_i, ← w.papers_core]
  simp [Core.papers, List.eraseIdx_map]

theorem move_dropPane (i : Nat) : Papers.Move w.papers (w.dropPane i).papers := by
  cases at_i : w.panes[i]? with
  | none =>
      rw [dropPane, at_i]
      exact .nothing _
  | some pane =>
      rw [w.papers_dropPane at_i]
      exact .closed _ (w.getElem?_sheets at_i)

theorem papers_rename {i : Nat} {old : Pane} (at_i : w.panes[i]? = some old) (path : Path) :
    (w.rename i path).papers =
      ⟨(w.papers.stored.erase old.uri).put (w.fileUri path) old.buffer.text,
        w.papers.sheets.set i { old.sheet with uri := w.fileUri path }⟩ := by
  rw [← papers_core, w.core_rename at_i, ← w.papers_core]
  simp [Core.papers, List.map_set, Pane.sheet, Pane.core]

theorem move_rename (i : Nat) (path : Path) : Papers.Move w.papers (w.rename i path).papers := by
  cases at_i : w.panes[i]? with
  | none =>
      rw [rename, at_i]
      exact .nothing _
  | some old =>
      rw [w.papers_rename at_i]
      exact .renamed _ (w.getElem?_sheets at_i) _

/-- Letting the current pane be edited edits its sheet. -/
theorem move_edit {f : Desk → Desk} (leads : ∀ d : Desk, d.IsPlain → d.Leads (f d))
    (plain : ∀ s ∈ w.papers.sheets, s.IsPlain) : Papers.Move w.papers (w.edit f).papers := by
  unfold edit onDesk
  split
  · exact .nothing _
  case h_2 pane current =>
    have at_i := w.getElem?_sheets current
    let d : Desk := { w.toSurroundings with pane := pane }
    have edited := Papers.Move.edited at_i (leads d (plain _ (List.mem_of_getElem? at_i)))
    simp only [papers, List.map_set]
    exact edited

/-- Validating a pane anew stores its text. -/
theorem papers_revalidate {i : Nat} {pane : Pane} (at_i : w.panes[i]? = some pane) :
    (w.revalidate i).papers = ⟨w.papers.stored.put pane.uri pane.buffer.text, w.papers.sheets⟩ := by
  rw [← papers_core, w.core_revalidate at_i, ← w.papers_core]
  rfl

theorem sheets_revalidate (i : Nat) : (w.revalidate i).papers.sheets = w.papers.sheets := by
  cases at_i : w.panes[i]? with
  | none => rw [revalidate, at_i]
  | some pane => rw [w.papers_revalidate at_i]

theorem move_revalidate (i : Nat) (plain : ∀ s ∈ w.papers.sheets, s.IsPlain) :
    Papers.Move w.papers (w.revalidate i).papers := by
  cases at_i : w.panes[i]? with
  | none =>
      rw [revalidate, at_i]
      exact .nothing _
  | some pane =>
      have place := w.getElem?_sheets at_i
      have stored := Papers.Move.edited place
        (Edited.put w.papers.stored pane.sheet rfl (plain _ (List.mem_of_getElem? place)))
      have same : w.papers.sheets.set i pane.sheet = w.papers.sheets := by
        obtain ⟨_, here⟩ := List.getElem?_eq_some_iff.mp place
        rw [← here, List.set_getElem_self]
      rw [w.papers_revalidate at_i]
      exact same ▸ stored

end Window

end Dragonstone.Editor
