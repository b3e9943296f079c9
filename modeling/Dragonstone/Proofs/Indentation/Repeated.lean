/-
# Formatting again and again

A file that is named twice on a command line is formatted twice.  However often a text is formatted,
its line breaks stay, and so does every line behind its leading space.  From the second time on the
text is left as it is.  Therefore a text that needs edits never comes back: it would have been left
as it is from the beginning.
-/

import Dragonstone.Proofs.Indentation.Settled
import Mathlib.Logic.Function.Iterate

namespace Dragonstone

theorem formatted_eq_weave (width : Nat) (text : Text) :
    formatted width text = weave (Layout.placed width {} (lines text)) (lineBreaks text) := by
  rw [formatted, applyEdits_formatEdits]

theorem lineBreaks_formatted (width : Nat) (text : Text) :
    lineBreaks (formatted width text) = lineBreaks text := by
  rw [formatted_eq_weave]
  exact (lines_weave_edit (keepsBreaks_placed width {} (lines text))).2

theorem map_ink_lines_formatted (width : Nat) (text : Text) :
    (lines (formatted width text)).map ink = (lines text).map ink := by
  rw [formatted_eq_weave, (lines_weave_edit (keepsBreaks_placed width {} (lines text))).1,
    map_ink_placed]

/-- A text needs no edits exactly if formatting leaves it as it is. -/
theorem formatEdits_eq_nil_iff_formatted (width : Nat) (text : Text) :
    formatEdits width text = [] ↔ formatted width text = text := by
  rw [formatEdits_eq_nil_iff, applyEdits_formatEdits, formatted_eq_weave, Except.ok.injEq]

/-- The second time, formatting leaves blanks alone in front of the lines of code, and then it finds
nothing to do. -/
theorem formatted_formatted_formatted (width : Nat) (text : Text) :
    formatted width (formatted width (formatted width text)) =
      formatted width (formatted width text) := by
  have applied : applyEdits (formatted width text) (formatEdits width (formatted width text)) =
      .ok (formatted width (formatted width text)) := by
    rw [applyEdits_formatEdits, formatted_eq_weave width (formatted width text)]
  have once : lines (formatted width text) = Layout.placed width {} (lines text) := by
    rw [formatted_eq_weave]
    exact (lines_weave_edit (keepsBreaks_placed width {} (lines text))).1
  rw [← formatEdits_eq_nil_iff_formatted, formatEdits_again_iff applied, once, map_ink_placed]
  exact .inr (codeLevels_placed width rfl (lines text))

/-! ### Any number of times -/

theorem lineBreaks_iterate_formatted (width n : Nat) (text : Text) :
    lineBreaks ((formatted width)^[n] text) = lineBreaks text := by
  induction n with
  | zero => rfl
  | succ n ih => rw [Function.iterate_succ_apply', lineBreaks_formatted, ih]

theorem map_ink_lines_iterate_formatted (width n : Nat) (text : Text) :
    (lines ((formatted width)^[n] text)).map ink = (lines text).map ink := by
  induction n with
  | zero => rfl
  | succ n ih => rw [Function.iterate_succ_apply', map_ink_lines_formatted, ih]

/-- A text that comes back after some rounds of formatting needed no edits. -/
theorem formatEdits_eq_nil_of_iterate {width n : Nat} {text : Text}
    (back : (formatted width)^[n + 1] text = text) : formatEdits width text = [] := by
  -- Twice as many rounds are at least two, and after two rounds nothing changes.
  have again : (formatted width)^[n + n + 2] text = text := by
    rw [show n + n + 2 = n + 1 + (n + 1) by omega, Function.iterate_add_apply, back, back]
  rw [formatEdits_eq_nil_iff_formatted]
  calc formatted width text
      = formatted width ((formatted width)^[n + n + 2] text) := by rw [again]
    _ = (formatted width)^[n + n + 2] text := by
      rw [Function.iterate_succ_apply', Function.iterate_succ_apply',
        formatted_formatted_formatted]
    _ = text := again

end Dragonstone
