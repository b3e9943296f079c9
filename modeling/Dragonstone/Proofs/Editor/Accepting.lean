/-
# Accepting a completion

An accepted completion takes the place of the word being typed and of nothing else, and the cursor
goes behind it or to the last stop of its snippet.  Between the two the cursor is noticed twice, and
each time completions may be offered anew; that stores the buffer and touches no text.

The stored text is brought up to date from the report of the replacement, so it comes out right if it
was right before, as it is after every edit of a document that one pane shows.  The place and the end
of the replacement have to survive the way into positions and back.  The place does if the end does:
where a word was being typed, a letter stands at its front, and where none was, place and end are the
same.  The end is the cursor, which in a text widget stands between no carriage return and its line
feed.
-/

import Dragonstone.Proofs.Completion.Expansion
import Dragonstone.Proofs.Completion.Typed
import Dragonstone.Proofs.Editor.Report

namespace Dragonstone

namespace Completion

/-- The text of an item with its tab stops: the text to insert, or the label where that is missing
or empty. -/
def Item.source (item : Item) : Text :=
  match item.insertText with
  | some (c :: rest) => c :: rest
  | _ => item.label

/-- The text that an item puts into the buffer. -/
def Item.inserted (item : Item) : Text :=
  if item.snippet then plainText item.source else item.source

/-- Where the cursor goes in it. -/
def Item.cursorIn (item : Item) : Nat :=
  if item.snippet then cursorOffset item.source else item.source.length

theorem Item.insertion_eq (item : Item) : item.insertion = (item.inserted, item.cursorIn) := by
  obtain ⟨label, kind, detail, insertText, snippet⟩ := item
  cases insertText with
  | none => cases snippet <;> rfl
  | some t => cases t <;> cases snippet <;> rfl

theorem Item.cursorIn_le (item : Item) : item.cursorIn ≤ item.inserted.length := by
  unfold cursorIn inserted
  split
  · exact cursorOffset_le _
  · exact Nat.le_refl _

end Completion

namespace Editor

open Completion (Item typedPrefix IsTypedWord)

namespace Buffer

variable {b : Buffer}

theorem not_mem_lineBefore (b : Buffer) : '\n' ∉ b.lineBefore :=
  not_mem_lastPart (b.text.take b.cursor)

/-- The word being typed stands in front of the cursor. -/
theorem typedPrefix_suffix (b : Buffer) : typedPrefix b.lineBefore <:+ b.text.take b.cursor := by
  have line : b.lineBefore <:+ b.text.take b.cursor :=
    ⟨_, beforeLastPart_append_lastPart (b.text.take b.cursor)⟩
  exact (Completion.typedPrefix_cases b.not_mem_lineBefore).1.trans line

/-- The place where the word being typed begins. -/
def typedStart (b : Buffer) : Nat :=
  b.cursor - (typedPrefix b.lineBefore).length

theorem take_cursor_eq (inside : b.cursor ≤ b.text.length) :
    b.text.take b.cursor = b.text.take b.typedStart ++ typedPrefix b.lineBefore := by
  obtain ⟨front, whole⟩ := b.typedPrefix_suffix
  have length : b.cursor = front.length + (typedPrefix b.lineBefore).length := by
    rw [← List.length_append, whole, List.length_take_of_le inside]
  have start : b.typedStart = front.length := by
    rw [typedStart]
    omega
  have taken : b.text.take front.length = front := by
    have again := congrArg (List.take front.length) whole
    rw [List.take_left, List.take_take, Nat.min_eq_left (by omega)] at again
    exact again.symm
  rw [start, taken, whole]

theorem typedStart_le (b : Buffer) : b.typedStart ≤ b.cursor :=
  Nat.sub_le _ _

/-- Where the cursor splits no line break, neither does the front of the word being typed. -/
theorem not_splitsBreak_typedStart (inside : b.cursor ≤ b.text.length)
    (whole : ¬ SplitsBreak b.text b.cursor) : ¬ SplitsBreak b.text b.typedStart := by
  have start := take_cursor_eq inside
  obtain none | word := (Completion.typedPrefix_cases b.not_mem_lineBefore).2
  · rw [typedStart, none, List.length_nil, Nat.sub_zero]
    exact whole
  · obtain ⟨c, rest, typed⟩ : ∃ c rest, typedPrefix b.lineBefore = c :: rest := by
      obtain ⟨stem, head, _, same | ⟨mark, _, same⟩⟩ := word <;> rw [same] <;> cases stem
      all_goals first | cases head | exact ⟨_, _, rfl⟩
    rintro ⟨-, feed⟩
    have behind : b.text = b.text.take b.typedStart ++ (c :: rest ++ b.text.drop b.cursor) := by
      rw [← typed, ← List.append_assoc, ← start, List.take_append_drop]
    have first : b.text.drop b.typedStart = c :: rest ++ b.text.drop b.cursor :=
      List.append_cancel_left ((List.take_append_drop _ _).trans behind)
    rw [first] at feed
    have mem : '\n' ∈ typedPrefix b.lineBefore := by
      rw [typed]
      cases feed
      exact List.mem_cons_self
    exact b.not_mem_lineBefore
      ((Completion.typedPrefix_cases b.not_mem_lineBefore).1.subset mem)

end Buffer

namespace Desk

variable {d : Desk}

/-- The stored text of the document is the text of the buffer. -/
def Agrees (d : Desk) : Prop :=
  d.session.documents.get? d.pane.uri = some d.pane.buffer.text

/-- Noticing the cursor leaves the buffer alone, and a stored text that is right. -/
theorem noticeCursor_keeps (d : Desk) : d.noticeCursor.pane.buffer = d.pane.buffer ∧
    d.noticeCursor.pane.uri = d.pane.uri ∧ (d.Agrees → d.noticeCursor.Agrees) := by
  unfold noticeCursor
  split
  · exact ⟨rfl, rfl, id⟩
  · simp only
    split
    · exact ⟨rfl, rfl, id⟩
    · split
      · exact ⟨rfl, rfl, fun _ => (KeyMap.get?_put _ _ _ _).trans (if_pos rfl)⟩
      · exact ⟨rfl, rfl, id⟩

theorem moveCursor_keeps (d : Desk) (offset : Nat) :
    (d.moveCursor offset).pane.buffer = d.pane.buffer.moveTo offset ∧
      (d.moveCursor offset).pane.uri = d.pane.uri ∧ (d.Agrees → (d.moveCursor offset).Agrees) :=
  noticeCursor_keeps { d with pane.buffer := d.pane.buffer.moveTo offset }

/-- A replacement between offsets that split no line break keeps the stored text right. -/
theorem replace_keeps (d : Desk) {start stop : Nat} (le : start ≤ stop)
    (inside : stop ≤ d.pane.buffer.text.length) (new : Text) :
    (d.replace start stop new).pane.buffer = d.pane.buffer.replace start stop new ∧
      (¬ SplitsBreak d.pane.buffer.text start → ¬ SplitsBreak d.pane.buffer.text stop →
        d.Agrees → (d.replace start stop new).Agrees) := by
  have noticed := noticeCursor_keeps (d.changed ⟨start, (stop - start : Nat), new.length⟩
    (d.pane.buffer.replace start stop new))
  refine ⟨noticed.1, fun wholeStart wholeStop agrees => noticed.2.2 ?_⟩
  refine (get?_changed_of_absorb agrees ?_ d.pane.uri).trans (if_pos rfl)
  refine TextChange.absorb_of_truthful (d.pane.buffer.truthful_replace le inside new)
    wholeStart ?_
  rwa [← Int.natCast_add, Nat.add_sub_cancel' le]

theorem hidePopup_keeps (d : Desk) :
    d.hidePopup.pane.buffer = d.pane.buffer ∧ (d.Agrees → d.hidePopup.Agrees) :=
  ⟨rfl, id⟩

/-- The text of an item takes the place of the word being typed. -/
theorem accept_keeps (d : Desk) (item : Item)
    (inside : d.pane.buffer.cursor ≤ d.pane.buffer.text.length) :
    (d.accept item).pane.buffer =
        (d.pane.buffer.replace d.pane.buffer.typedStart d.pane.buffer.cursor item.inserted).moveTo
          (d.pane.buffer.typedStart + item.cursorIn) ∧
      (¬ SplitsBreak d.pane.buffer.text d.pane.buffer.cursor → d.Agrees →
        (d.accept item).Agrees) := by
  have replaced := d.replace_keeps d.pane.buffer.typedStart_le inside item.inserted
  let typed := d.replace d.pane.buffer.typedStart d.pane.buffer.cursor item.inserted
  have moved := typed.moveCursor_keeps (d.pane.buffer.typedStart + item.cursorIn)
  have hidden := (typed.moveCursor (d.pane.buffer.typedStart + item.cursorIn)).hidePopup_keeps
  have accepted : d.accept item =
      (typed.moveCursor (d.pane.buffer.typedStart + item.cursorIn)).hidePopup := by
    unfold accept
    simp only [item.insertion_eq]
    rfl
  rw [accepted]
  refine ⟨?_, fun whole agrees => hidden.2 (moved.2.2 ?_)⟩
  · rw [hidden.1, moved.1, replaced.1]
  · exact replaced.2 (Buffer.not_splitsBreak_typedStart inside whole) whole agrees

/-- A desk with two letters of a word typed. -/
def sampleDesk : Desk :=
  { session := { documents := ⟨[("a", "x = pu\ny".toList)]⟩ }
    pane := { uri := "a", buffer := ⟨"x = pu\ny".toList, 6⟩ } }

def sampleSnippet : Item :=
  { label := "puts".toList, kind := .function, insertText := some "puts($1, $0) or $2".toList
    snippet := true }

end Desk

end Editor

end Dragonstone
