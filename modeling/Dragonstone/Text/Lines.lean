/-
# Lines and line breaks

A text is cut at line feeds; a carriage return directly before one belongs to the break, any other
is an ordinary character of its line.  A text has one line more than it has breaks, and weaving
the two lists together gives the text back.
-/

import Dragonstone.Text

namespace Dragonstone

inductive LineBreak where
  | lf
  | crlf
  deriving DecidableEq, Repr

def LineBreak.text : LineBreak → Text
  | .lf => ['\n']
  | .crlf => ['\r', '\n']

/-- Put a character in front of the first line. -/
def consChar (c : Char) : List Line → List Line
  | [] => [[c]]
  | line :: rest => (c :: line) :: rest

/-- The lines of a text, without their breaks. -/
def lines : Text → List Line
  | [] => [[]]
  | '\r' :: '\n' :: rest => [] :: lines rest
  | '\n' :: rest => [] :: lines rest
  | c :: rest => consChar c (lines rest)

/-- The breaks of a text, in order. -/
def lineBreaks : Text → List LineBreak
  | [] => []
  | '\r' :: '\n' :: rest => .crlf :: lineBreaks rest
  | '\n' :: rest => .lf :: lineBreaks rest
  | _ :: rest => lineBreaks rest

/-- Lines joined by the given breaks; missing breaks join nothing. -/
def weave : List Line → List LineBreak → Text
  | [], _ => []
  | [line], _ => line
  | line :: rest, [] => line ++ weave rest []
  | line :: rest, b :: breaks => line ++ b.text ++ weave rest breaks

theorem lines_ne_nil (s : Text) : lines s ≠ [] := by
  fun_induction lines s with
  | case1 => simp
  | case2 => simp
  | case3 => simp
  | case4 c rest _ _ ih =>
    cases h : lines rest with
    | nil => exact absurd h ih
    | cons => simp [consChar]

/-- A text has one line more than it has breaks. -/
theorem length_lines (s : Text) : (lines s).length = (lineBreaks s).length + 1 := by
  fun_induction lines s with
  | case1 => rfl
  | case2 rest ih => simp [lineBreaks, ih]
  | case3 rest ih => simp [lineBreaks, ih]
  | case4 c rest h₁ h₂ ih =>
    rw [lineBreaks.eq_4 c rest h₁ h₂, ← ih]
    cases h : lines rest with
    | nil => exact absurd h (lines_ne_nil rest)
    | cons => simp [consChar]

/-- Putting a character in front of the first line puts it in front of the woven text. -/
theorem weave_consChar (c : Char) {ls : List Line} (h : ls ≠ []) (bs : List LineBreak) :
    weave (consChar c ls) bs = c :: weave ls bs := by
  match ls, bs with
  | [line], bs => cases bs <;> rfl
  | line :: next :: rest, [] => rfl
  | line :: next :: rest, b :: bs => rfl

/-- Cutting a text into lines loses nothing. -/
theorem weave_lines (s : Text) : weave (lines s) (lineBreaks s) = s := by
  fun_induction lines s with
  | case1 => rfl
  | case2 rest ih =>
    rw [lineBreaks]
    cases h : lines rest with
    | nil => exact absurd h (lines_ne_nil rest)
    | cons first more => rw [h] at ih; simp [weave, LineBreak.text, ih]
  | case3 rest ih =>
    rw [lineBreaks]
    cases h : lines rest with
    | nil => exact absurd h (lines_ne_nil rest)
    | cons first more => rw [h] at ih; simp [weave, LineBreak.text, ih]
  | case4 c rest h₁ h₂ ih =>
    rw [lineBreaks.eq_4 c rest h₁ h₂, weave_consChar c (lines_ne_nil rest), ih]

end Dragonstone
