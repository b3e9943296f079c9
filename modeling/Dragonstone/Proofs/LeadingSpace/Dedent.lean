/-
# Texts without indentation

A text is dedented by dropping the blanks in front of every line.  Lines and breaks of the dedented
text are those expected, because a line keeps its end: no line feed and no carriage return before a
break is lost or new.  So two texts with the same breaks whose lines are equal behind their blanks
have the same dedented text, and to show that indentation is without influence it is enough to
compare a text with its dedented form.

For what is read off the whole text and not line by line, it is enough to look at one beginning of
a line at a time.
-/

import Dragonstone.Proofs.LeadingSpace.Character
import Dragonstone.Proofs.Text.Weaving

namespace Dragonstone

/-- The text without the blanks in front of its lines. -/
def dedent (text : Text) : Text :=
  weave ((lines text).map skipBlanks) (lineBreaks text)

theorem keepsBreaks_skipBlanks (line : Line) : KeepsBreaks line (skipBlanks line) := by
  show KeepsBreaks line ([] ++ skipBlanks line)
  exact KeepsBreaks.append (List.dropWhile_suffix isBlank) List.not_mem_nil fun _ => rfl

theorem forall₂_keepsBreaks_skipBlanks (ls : List Line) :
    List.Forall₂ KeepsBreaks ls (ls.map skipBlanks) := by
  rw [List.forall₂_map_right_iff, List.forall₂_same]
  exact fun line _ => keepsBreaks_skipBlanks line

/-- The lines of a dedented text are those of the text, each without the blanks in front. -/
theorem lines_dedent (text : Text) : lines (dedent text) = (lines text).map skipBlanks :=
  (lines_weave_edit (forall₂_keepsBreaks_skipBlanks (lines text))).1

/-- Texts that differ in indentation only have the same dedented text. -/
theorem dedent_eq_of_lines {a b : Text} (breaks : lineBreaks a = lineBreaks b)
    (behindBlanks : (lines a).map skipBlanks = (lines b).map skipBlanks) :
    dedent a = dedent b := by
  rw [dedent, behindBlanks, breaks, dedent]

/-! ### What is read off the whole text -/

/-- Whatever follows the text stands at the beginning of a line. -/
def EndsLine (s : Text) : Prop :=
  s = [] ∨ ∃ front, s = front ++ ['\n']

theorem endsLine_append_break (s : Text) (b : LineBreak) : EndsLine (s ++ b.text) := by
  right
  cases b with
  | lf => exact ⟨s, rfl⟩
  | crlf => exact ⟨s ++ ['\r'], by simp [LineBreak.text]⟩

/-- A function of a text that blanks at the beginning of a line have no influence on. -/
def IgnoresIndents {β : Type} (f : Text → β) : Prop :=
  ∀ u p v, EndsLine u → (∀ c ∈ p, isBlank c = true) → f (u ++ (p ++ v)) = f (u ++ v)

namespace IgnoresIndents

variable {β : Type} {f : Text → β}

/-- The blanks in front of the first line have no influence. -/
theorem apply_line (hf : IgnoresIndents f) {u : Text} (hu : EndsLine u) (line : Line) (v : Text) :
    f (u ++ (skipBlanks line ++ v)) = f (u ++ (line ++ v)) := by
  have blanks : ∀ c ∈ line.takeWhile isBlank, isBlank c = true :=
    List.all_eq_true.mp List.all_takeWhile
  calc f (u ++ (skipBlanks line ++ v))
      = f (u ++ (line.takeWhile isBlank ++ (skipBlanks line ++ v))) :=
        (hf u _ _ hu blanks).symm
    _ = f (u ++ (line ++ v)) := by
        rw [← List.append_assoc (List.takeWhile isBlank line), skipBlanks,
          List.takeWhile_append_dropWhile]

/-- The blanks in front of lines have no influence where lines and breaks are woven together. -/
theorem apply_weave (hf : IgnoresIndents f) {ls : List Line} {bs : List LineBreak} (cut : IsCut ls bs)
    {u : Text} (hu : EndsLine u) :
    f (u ++ weave (ls.map skipBlanks) bs) = f (u ++ weave ls bs) := by
  induction cut generalizing u with
  | @last line _ =>
      show f (u ++ skipBlanks line) = f (u ++ line)
      simpa using hf.apply_line hu line []
  | @next line b rest bs _ _ cut ih =>
      have hrest : rest ≠ [] := cut.ne_nil
      have hmap : rest.map skipBlanks ≠ [] := by simpa using hrest
      rw [List.map_cons, weave_cons hmap, weave_cons hrest]
      have hlater := ih (endsLine_append_break (u ++ skipBlanks line) b)
      simp only [List.append_assoc] at hlater ⊢
      rw [hlater]
      exact hf.apply_line hu line _

/-- The indentation of a text has no influence. -/
theorem apply_dedent (hf : IgnoresIndents f) (text : Text) : f (dedent text) = f text := by
  have hweave := hf.apply_weave (isCut_lines text) (u := []) (Or.inl rfl)
  rw [List.nil_append, List.nil_append, weave_lines] at hweave
  exact hweave

end IgnoresIndents

end Dragonstone
