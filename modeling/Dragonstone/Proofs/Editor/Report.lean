/-
# Reports of edits

Every edit of a buffer is reported as a place and two counts: where the text changed, how many
characters went there and how many came.  The stored copy is brought up to date from the report
alone.  The place and its end are turned into positions of the old text and back into offsets, and
what came is read off the new text.

A report that tells the truth makes the copy right again, wherever the text changed, if the old text
has no carriage return.  So does a report that covers more than there is, since then the whole text
is copied; a report of a whole text being set is of this kind, because it counts one character too
many.  After any number of edits, reported in either way, the copy is the text of the buffer.
-/

import Dragonstone.Editor.Desk
import Dragonstone.Proofs.Store.Splice

namespace Dragonstone.Editor

/-! ### One report -/

namespace TextChange

/-- A place and two counts, by which the new text is the old one but for what came in the place of
what went. -/
structure Truthful (e : TextChange) (old new : Text) : Prop where
  position : 0 ≤ e.position
  removed : 0 ≤ e.removed
  added : 0 ≤ e.added
  text : new = upTo e.position old ++ slice e.position (e.position + e.added) new ++
    fromOn (e.position + e.removed) old

/-- What an edit is reported with: the truth, or more than there is. -/
def Reports (e : TextChange) (old new : Text) : Prop :=
  e.Truthful old new ∨ e.exceeds old new = true

/-- A copy that was right is right again, if the report is true and the place splits no line break of
the old text, nor does its end. -/
theorem absorb_of_truthful {e : TextChange} {old new : Text} (truthful : e.Truthful old new)
    (wholeStart : ¬ SplitsBreak old e.position.toNat)
    (wholeStop : ¬ SplitsBreak old (e.position + e.removed).toNat) : e.absorb old new = new := by
  unfold absorb
  split
  case isTrue => rfl
  case isFalse fits =>
      obtain ⟨position, removed, added⟩ := e
      obtain ⟨position, rfl⟩ := Int.eq_ofNat_of_zero_le truthful.position
      obtain ⟨removed, rfl⟩ := Int.eq_ofNat_of_zero_le truthful.removed
      obtain ⟨added, rfl⟩ := Int.eq_ofNat_of_zero_le truthful.added
      have text := truthful.text
      simp only [exceeds, Bool.or_eq_true, decide_eq_true_eq] at fits
      simp only [← Int.natCast_add, Int.toNat_natCast, upTo_natCast, fromOn_natCast]
        at text wholeStart wholeStop ⊢
      rw [replaceRange_positionAt (Nat.le_add_right _ _) (by omega) wholeStart wholeStop]
      exact text.symm

/-- A copy without carriage returns that was right is right again. -/
theorem absorb_of_reports {e : TextChange} {old new : Text} (plain : '\r' ∉ old)
    (reports : e.Reports old new) : e.absorb old new = new := by
  obtain truthful | exceeds := reports
  · exact absorb_of_truthful truthful (not_splitsBreak_of_not_mem plain _)
      (not_splitsBreak_of_not_mem plain _)
  · exact if_pos exceeds

end TextChange

namespace Buffer

/-- A replacement inside a text is reported with what it replaces. -/
theorem truthful_replace (b : Buffer) {start stop : Nat} (le : start ≤ stop)
    (inside : stop ≤ b.text.length) (new : Text) :
    (⟨start, (stop - start : Nat), new.length⟩ : TextChange).Truthful b.text
      (b.replace start stop new).text := by
  refine ⟨Int.natCast_nonneg _, Int.natCast_nonneg _, Int.natCast_nonneg _, ?_⟩
  have front : (b.text.take start).length = start :=
    List.length_take_of_le (Nat.le_trans le inside)
  have came : ((b.replace start stop new).text.drop start).take new.length = new := by
    rw [replace, List.append_assoc, List.drop_append_of_le_length (by omega),
      List.drop_of_length_le (by omega), List.nil_append, List.take_left]
  simp only [← Int.natCast_add, upTo_natCast, fromOn_natCast, slice_natCast,
    Nat.add_sub_cancel_left, came, Nat.add_sub_cancel' le]
  rfl

/-- A replacement is reported with what it replaces, which may be more than there is. -/
theorem reports_replace (b : Buffer) {start stop : Nat} (le : start ≤ stop) (new : Text) :
    (⟨start, (stop - start : Nat), new.length⟩ : TextChange).Reports b.text
      (b.replace start stop new).text := by
  by_cases inside : stop ≤ b.text.length
  · exact .inl (b.truthful_replace le inside new)
  · right
    simp only [TextChange.exceeds, Bool.or_eq_true, decide_eq_true_eq]
    omega

theorem not_mem_replace {b : Buffer} (plain : '\r' ∉ b.text) (start stop : Nat) {new : Text}
    (typed : '\r' ∉ new) : '\r' ∉ (b.replace start stop new).text := by
  intro h
  obtain h | h := List.mem_append.mp h
  · obtain h | h := List.mem_append.mp h
    · exact plain (List.mem_of_mem_take h)
    · exact typed h
  · exact plain (List.mem_of_mem_drop h)

end Buffer

/-! ### Reports one after the other -/

/-- Edits that follow each other, each with its report: the first one is an edit of the given text.
No text has a carriage return in it when it is edited. -/
def AreReported : Text → List (TextChange × Buffer) → Prop
  | _, [] => True
  | old, (e, b) :: rest => '\r' ∉ old ∧ e.Reports old b.text ∧ AreReported b.text rest

namespace Desk

/-- The desk after some edits. -/
def afterEdits (d : Desk) (edits : List (TextChange × Buffer)) : Desk :=
  edits.foldl (fun d edit => d.changed edit.1 edit.2) d

variable {d : Desk} {e : TextChange} {b : Buffer}

/-- An edit whose report makes the stored text that of the buffer changes no other stored text. -/
theorem get?_changed_of_absorb
    (stored : d.session.documents.get? d.pane.uri = some d.pane.buffer.text)
    (absorbed : e.absorb d.pane.buffer.text b.text = b.text) (uri : String) :
    (d.changed e b).session.documents.get? uri =
      if uri = d.pane.uri then some b.text else d.session.documents.get? uri := by
  have put : (d.changed e b).session.documents = d.session.documents.put d.pane.uri
      (e.absorb ((d.session.documents.get? d.pane.uri).getD []) b.text) := rfl
  rw [put, stored, Option.getD_some, absorbed, KeyMap.get?_put]

/-- An edit puts the new text of the buffer in the place of the old one. -/
theorem get?_changed (stored : d.session.documents.get? d.pane.uri = some d.pane.buffer.text)
    (plain : '\r' ∉ d.pane.buffer.text) (reports : e.Reports d.pane.buffer.text b.text)
    (uri : String) :
    (d.changed e b).session.documents.get? uri =
      if uri = d.pane.uri then some b.text else d.session.documents.get? uri :=
  get?_changed_of_absorb stored (TextChange.absorb_of_reports plain reports) uri

/-- Edits follow each other, and the stored text of the document, which was that of the buffer, is
brought up to date from one report after the other.  Then it is the text that the last edit has left
in the buffer.  No other document has changed. -/
theorem stored_text_follows_reports (d : Desk) (edits : List (TextChange × Buffer))
    (stored : d.session.documents.get? d.pane.uri = some d.pane.buffer.text)
    (reported : AreReported d.pane.buffer.text edits) :
    (d.afterEdits edits).pane.buffer = (edits.map Prod.snd).getLast?.getD d.pane.buffer ∧
      (d.afterEdits edits).session.documents.get? d.pane.uri =
        some (d.afterEdits edits).pane.buffer.text ∧
      ∀ other ≠ d.pane.uri, (d.afterEdits edits).session.documents.get? other =
        d.session.documents.get? other := by
  induction edits generalizing d with
  | nil => exact ⟨rfl, stored, fun _ _ => rfl⟩
  | cons edit rest ih =>
      obtain ⟨e, b⟩ := edit
      obtain ⟨plain, reports, later⟩ := reported
      have now := get?_changed stored plain reports
      obtain ⟨buffer, agrees, others⟩ :=
        ih (d.changed e b) ((now d.pane.uri).trans (if_pos rfl)) later
      refine ⟨?_, agrees, fun other different => ?_⟩
      · rw [List.map_cons, List.getLast?_cons, Option.getD_some]
        exact buffer
      · exact (others other different).trans ((now other).trans (if_neg different))

/-- Two lines are joined, a whole text is set, which is reported with one character too many, and the
end of it is taken away. -/
def sampleEdits : List (TextChange × Buffer) :=
  [(⟨1, 3, 2⟩, ⟨"a--d".toList, 3⟩), (⟨0, 5, 4⟩, ⟨"p\nq".toList, 0⟩), (⟨1, 2, 0⟩, ⟨"p".toList, 1⟩)]

theorem stored_text_follows_reports_of_sample :
    let d : Desk := { session := { documents := ⟨[("a", "ab\ncd".toList)]⟩ },
                      pane := { uri := "a", buffer := ⟨"ab\ncd".toList, 4⟩ } }
    d.session.documents.get? d.pane.uri = some d.pane.buffer.text ∧
      AreReported d.pane.buffer.text sampleEdits ∧
      (d.afterEdits sampleEdits).session.documents.get? "a" = some "p".toList := by
  intro d
  have stored : d.session.documents.get? d.pane.uri = some d.pane.buffer.text := by decide
  have reported : AreReported d.pane.buffer.text sampleEdits :=
    ⟨by decide, .inl ⟨by decide, by decide, by decide, by decide⟩,
      by decide, .inr (by decide),
      by decide, .inl ⟨by decide, by decide, by decide, by decide⟩, trivial⟩
  obtain ⟨buffer, agrees, -⟩ := stored_text_follows_reports d sampleEdits stored reported
  rw [buffer] at agrees
  exact ⟨stored, reported, agrees⟩

end Desk

end Dragonstone.Editor
