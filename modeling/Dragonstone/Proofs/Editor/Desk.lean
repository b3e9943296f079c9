/-
# Edits reach the stored text

Every edit of a buffer is reported and brings the stored copy of the text up to date.  Whatever is
done at a desk is a sequence of such edits, of movements of the cursor and of the popup, and of whole
buffers being stored.  `Edited` says what all of them have in common: the pane keeps
its document, the documents of other panes are left alone, and a copy that was right stays right.
-/

import Dragonstone.Proofs.Completion.Listed
import Dragonstone.Proofs.Editor.Report
import Dragonstone.Proofs.Text.CarriageReturn

namespace Dragonstone.Editor

open Completion (Item)

/-! ### Sheets -/

/-- What a pane holds of a document: its uri, its text, and what may be completed in it. -/
structure Sheet where
  uri : String
  text : Text
  items : List Item

/-- There is no carriage return in the text, and none that could be completed into it. -/
structure Sheet.IsPlain (s : Sheet) : Prop where
  text : '\r' ∉ s.text
  items : ∀ item ∈ s.items, '\r' ∉ item.insertion.1

def Pane.sheet (p : Pane) : Sheet :=
  ⟨p.uri, p.buffer.text, p.popup.items⟩

/-- What editing may make of a sheet and of the stored texts. -/
structure Edited (stored : Store) (s : Sheet) (stored' : Store) (s' : Sheet) : Prop where
  uri : s'.uri = s.uri
  others : ∀ uri, uri ≠ s.uri → stored'.get? uri = stored.get? uri
  plain : s'.IsPlain
  agrees : stored.get? s.uri = some s.text → stored'.get? s.uri = some s'.text

theorem Edited.refl (stored : Store) {s : Sheet} (plain : s.IsPlain) : Edited stored s stored s :=
  ⟨rfl, fun _ _ => rfl, plain, id⟩

theorem Edited.trans {stored₁ stored₂ stored₃ : Store} {s₁ s₂ s₃ : Sheet}
    (first : Edited stored₁ s₁ stored₂ s₂) (second : Edited stored₂ s₂ stored₃ s₃) :
    Edited stored₁ s₁ stored₃ s₃ where
  uri := second.uri.trans first.uri
  others _ other := (second.others _ (first.uri ▸ other)).trans (first.others _ other)
  plain := second.plain
  agrees held := first.uri ▸ second.agrees (first.uri.symm ▸ first.agrees held)

/-- A sheet whose text is stored, whatever was stored before. -/
theorem Edited.put (stored : Store) {s : Sheet} (s' : Sheet) (uri : s'.uri = s.uri)
    (plain : s'.IsPlain) : Edited stored s (stored.put s.uri s'.text) s' where
  uri := uri
  others _ other := (KeyMap.get?_put _ _ _ _).trans (if_neg other)
  plain := plain
  agrees _ := (KeyMap.get?_put _ _ _ _).trans (if_pos rfl)

/-- The text that a key types. -/
def Key.typedText : Key → Text
  | .typed text => text
  | _ => []

namespace Desk

/-- One desk may become the other by editing. -/
def Leads (d d' : Desk) : Prop :=
  Edited d.session.documents d.pane.sheet d'.session.documents d'.pane.sheet

def IsPlain (d : Desk) : Prop :=
  d.pane.sheet.IsPlain

theorem Leads.plain {d d' : Desk} (h : d.Leads d') : d'.IsPlain :=
  Edited.plain h

theorem Leads.trans {d₁ d₂ d₃ : Desk} (first : d₁.Leads d₂) (second : d₂.Leads d₃) :
    d₁.Leads d₃ :=
  Edited.trans first second

variable {d : Desk}

theorem IsPlain.leads_self (h : d.IsPlain) : d.Leads d :=
  Edited.refl _ h

theorem IsPlain.leads_of_sheet (h : d.IsPlain) {d' : Desk}
    (stored : d'.session.documents = d.session.documents) (sheet : d'.pane.sheet = d.pane.sheet) :
    d.Leads d' := by
  rw [Leads, stored, sheet]
  exact Edited.refl _ h

theorem IsPlain.leads_sync (h : d.IsPlain) : d.Leads d.sync :=
  Edited.put _ _ rfl h

theorem IsPlain.leads_hidePopup (h : d.IsPlain) : d.Leads d.hidePopup :=
  Edited.refl _ h

/-! ### The popup and the cursor -/

theorem mem_items_offer {p : Popup} {items : List Item} {item : Item}
    (h : item ∈ (p.offer items).items) : item ∈ p.items ∨ item ∈ items := by
  unfold Popup.offer at h
  split at h
  · exact .inl h
  · exact .inr h

theorem not_mem_insertion_of_mem_completions {item : Item} (h : item ∈ d.completions) :
    '\r' ∉ item.insertion.1 := by
  have candidate := Completion.mem_of_mem_filter h
  unfold Store.candidates at candidate
  split at candidate
  · exact Completion.not_mem_insertion_of_mem_candidates candidate
  · cases candidate

theorem IsPlain.leads_offerCompletions (h : d.IsPlain) : d.Leads d.offerCompletions := by
  refine Edited.put _ d.offerCompletions.pane.sheet rfl ⟨h.text, fun item mem => ?_⟩
  obtain mem | mem := mem_items_offer mem
  · exact h.items item mem
  · exact not_mem_insertion_of_mem_completions mem

theorem IsPlain.leads_noticeCursor (h : d.IsPlain) : d.Leads d.noticeCursor := by
  unfold noticeCursor
  split
  · exact h.leads_self
  · simp only
    split
    · exact Edited.refl _ h
    · split
      · exact leads_offerCompletions (d := { d with pane.noticed := d.pane.buffer.cursor }) h
      · exact Edited.refl _ h

theorem IsPlain.leads_moveCursor (h : d.IsPlain) (offset : Nat) : d.Leads (d.moveCursor offset) :=
  leads_noticeCursor (d := { d with pane.buffer := d.pane.buffer.moveTo offset }) h

theorem IsPlain.leads_goTo (h : d.IsPlain) (p : Position) : d.Leads (d.goTo p) := by
  unfold goTo
  split
  · exact h.leads_moveCursor _
  · exact h.leads_self

/-! ### Edits -/

/-- A replacement brings the stored text up to date. -/
theorem IsPlain.leads_changed (h : d.IsPlain) {start stop : Nat} (le : start ≤ stop) {new : Text}
    (typed : '\r' ∉ new) :
    d.Leads (d.changed ⟨start, (stop - start : Nat), new.length⟩
      (d.pane.buffer.replace start stop new)) where
  uri := rfl
  others _ other := (KeyMap.get?_put _ _ _ _).trans (if_neg other)
  plain := ⟨Buffer.not_mem_replace h.text start stop typed, h.items⟩
  agrees held :=
    (get?_changed held h.text (Buffer.reports_replace _ le new) d.pane.uri).trans (if_pos rfl)

theorem IsPlain.leads_replace (h : d.IsPlain) {start stop : Nat} (le : start ≤ stop) {new : Text}
    (typed : '\r' ∉ new) : d.Leads (d.replace start stop new) :=
  have changed := h.leads_changed le typed
  changed.trans changed.plain.leads_noticeCursor

theorem IsPlain.leads_insert (h : d.IsPlain) {new : Text} (typed : '\r' ∉ new) :
    d.Leads (d.insert new) :=
  h.leads_replace (Nat.le_refl _) typed

theorem IsPlain.leads_accept (h : d.IsPlain) {item : Item} (typed : '\r' ∉ item.insertion.1) :
    d.Leads (d.accept item) := by
  have replaced := h.leads_replace (Nat.sub_le d.pane.buffer.cursor
    (Completion.typedPrefix d.pane.buffer.lineBefore).length) typed
  have moved := replaced.plain.leads_moveCursor (d.pane.buffer.cursor -
    (Completion.typedPrefix d.pane.buffer.lineBefore).length + item.insertion.2)
  exact (replaced.trans moved).trans moved.plain.leads_hidePopup

theorem IsPlain.leads_mouseOver (h : d.IsPlain) (p : Position) : d.Leads (d.mouseOver p) := by
  unfold mouseOver
  extract_lets n line column word
  split
  · exact h.leads_self
  · split
    · exact h.leads_self
    · exact Edited.put _ _ rfl h

theorem IsPlain.leads_goToDefinition (h : d.IsPlain) : d.Leads d.goToDefinition.1 := by
  have synced := h.leads_sync
  unfold goToDefinition
  simp only
  split
  · exact synced
  · exact synced.trans (synced.plain.leads_goTo _)

theorem IsPlain.leads_format (h : d.IsPlain) : d.Leads d.format.1 := by
  have synced := h.leads_sync
  unfold format
  simp only
  split
  · exact synced
  · have replaced := synced.plain.leads_replace (Nat.zero_le d.pane.buffer.text.length)
      (not_mem_formatted h.text d.session.config.indentWidth)
    exact (synced.trans replaced).trans (replaced.plain.leads_goTo _)

/-! ### Keys -/

theorem IsPlain.leads_edit (h : d.IsPlain) {key : Key} (typed : '\r' ∉ key.typedText) :
    d.Leads (d.edit key) := by
  cases key with
  | enter => exact h.leads_insert (by decide)
  | backspace => exact h.leads_replace (Nat.sub_le _ _) List.not_mem_nil
  | left => exact h.leads_moveCursor _
  | right => exact h.leads_moveCursor _
  | typed text => exact h.leads_insert typed
  | _ => exact h.leads_self

theorem not_mem_indentUnit (c : Config) : '\r' ∉ c.indentUnit := by
  intro h
  cases List.eq_of_mem_replicate h

theorem IsPlain.leads_command (h : d.IsPlain) {key : Key} (typed : '\r' ∉ key.typedText)
    (ctrl : Bool) : d.Leads (d.command key ctrl) := by
  cases key with
  | space =>
      cases ctrl with
      | true => exact h.leads_offerCompletions
      | false => exact h.leads_self
  | definition => exact h.leads_goToDefinition
  | tab => exact h.leads_insert (not_mem_indentUnit _)
  | _ => exact h.leads_edit typed

theorem mem_items_of_selected? {p : Popup} {item : Item} (h : p.selected? = some item) :
    item ∈ p.items := by
  obtain ⟨row, _, h⟩ := Option.bind_eq_some_iff.mp h
  exact List.mem_of_getElem? h

theorem IsPlain.leads_acceptSelected (h : d.IsPlain) {key : Key} (typed : '\r' ∉ key.typedText)
    (ctrl : Bool) : d.Leads (d.acceptSelected key ctrl) := by
  unfold acceptSelected
  split
  case h_1 item selected => exact h.leads_accept (h.items item (mem_items_of_selected? selected))
  case h_2 => exact h.leads_command typed ctrl

theorem items_next (p : Popup) : p.next.items = p.items := by
  fun_cases Popup.next p <;> rfl

theorem items_previous (p : Popup) : p.previous.items = p.items := by
  fun_cases Popup.previous p <;> rfl

theorem IsPlain.leads_press (h : d.IsPlain) {key : Key} (typed : '\r' ∉ key.typedText)
    (ctrl : Bool) : d.Leads (d.press key ctrl) := by
  unfold press
  split
  case isFalse => exact h.leads_command typed ctrl
  case isTrue =>
    cases key with
    | up => exact h.leads_of_sheet rfl (by rw [Pane.sheet, items_previous]; rfl)
    | down => exact h.leads_of_sheet rfl (by rw [Pane.sheet, items_next]; rfl)
    | enter => exact h.leads_acceptSelected typed ctrl
    | tab => exact h.leads_acceptSelected typed ctrl
    | escape => exact h.leads_hidePopup
    | _ => exact h.leads_command typed ctrl

theorem IsPlain.leads_clickPopup (h : d.IsPlain) (row : Nat) : d.Leads (d.clickPopup row) := by
  unfold clickPopup
  split
  case h_1 item clicked =>
    have accepted := h.leads_accept (h.items item (List.mem_of_getElem? clicked))
    exact accepted.trans accepted.plain.leads_hidePopup
  case h_2 => exact h.leads_self

theorem IsPlain.leads_blur (h : d.IsPlain) : d.Leads d.blur := by
  unfold blur
  split
  · exact h.leads_hidePopup
  · exact h.leads_self

end Desk

end Dragonstone.Editor
