/-
# Weaving and cutting

Cutting a text into lines and breaks and weaving them together again gives the text back.  This
module has the other direction.  Not every list of lines survives: a line with a line feed in it
would be cut further, and a line that ends in a carriage return would lose it to a bare line feed
after it.  Lists without these two faults are exactly what cutting gives, and weaving such lists
and cutting again changes nothing.

So whoever edits the lines of a text keeps its breaks if no line gets a line feed or a new carriage
return at its end.
-/

import Dragonstone.Text.Lines
import Mathlib.Data.List.Forall2

namespace Dragonstone

/-- Lines and breaks as cutting gives them: one line more than breaks, no line feed in a line, and
no carriage return at the end of a line that a bare line feed follows. -/
inductive IsCut : List Line → List LineBreak → Prop
  | last {line : Line} : '\n' ∉ line → IsCut [line] []
  | next {line : Line} {b : LineBreak} {rest : List Line} {bs : List LineBreak} :
      '\n' ∉ line → (b = .lf → line.getLast? ≠ some '\r') → IsCut rest bs →
      IsCut (line :: rest) (b :: bs)

/-! ### Cutting what was woven -/

/-- A character that is no part of a break is put in front of the first line. -/
theorem lines_cons {c : Char} {s : Text} (feed : c ≠ '\n')
    (crlf : c = '\r' → s.head? ≠ some '\n') :
    lines (c :: s) = consChar c (lines s) ∧ lineBreaks (c :: s) = lineBreaks s := by
  have hcrlf : ∀ rest, c = '\r' → s = '\n' :: rest → False := by
    rintro rest hc rfl
    exact crlf hc rfl
  exact ⟨lines.eq_4 c s hcrlf feed, lineBreaks.eq_4 c s hcrlf feed⟩

theorem lines_of_no_feed {line : Line} (feed : '\n' ∉ line) :
    lines line = [line] ∧ lineBreaks line = [] := by
  induction line with
  | nil => exact ⟨rfl, rfl⟩
  | cons c rest ih =>
      have hc : c ≠ '\n' := (List.ne_of_not_mem_cons feed).symm
      have hrest : '\n' ∉ rest := List.not_mem_of_not_mem_cons feed
      obtain ⟨hlines, hbreaks⟩ := ih hrest
      have hcrlf : c = '\r' → rest.head? ≠ some '\n' := by
        intro _ hhead
        exact hrest (List.mem_of_mem_head? hhead)
      obtain ⟨consLines, consBreaks⟩ := lines_cons hc hcrlf
      rw [consLines, consBreaks, hlines, hbreaks]
      exact ⟨rfl, rfl⟩

/-- A line with a break after it is cut off at this break. -/
theorem lines_append_break {line : Line} {b : LineBreak} (rest : Text) (feed : '\n' ∉ line)
    (bare : b = .lf → line.getLast? ≠ some '\r') :
    lines (line ++ b.text ++ rest) = line :: lines rest ∧
      lineBreaks (line ++ b.text ++ rest) = b :: lineBreaks rest := by
  induction line with
  | nil => cases b <;> exact ⟨rfl, rfl⟩
  | cons c line ih =>
      have hc : c ≠ '\n' := (List.ne_of_not_mem_cons feed).symm
      have hline : '\n' ∉ line := List.not_mem_of_not_mem_cons feed
      have hbare : b = .lf → line.getLast? ≠ some '\r' := by
        intro hb hlast
        apply bare hb
        rw [List.getLast?_cons, hlast]
        rfl
      have hcrlf : c = '\r' → (line ++ b.text ++ rest).head? ≠ some '\n' := by
        intro hcr hhead
        cases line with
        | nil =>
            cases b with
            | lf => exact bare rfl (by rw [hcr]; rfl)
            | crlf => cases hhead
        | cons d line => exact hline (by simpa using Or.inl (Option.some.inj hhead).symm)
      obtain ⟨hlines, hbreaks⟩ := ih hline hbare
      obtain ⟨consLines, consBreaks⟩ := lines_cons hc hcrlf
      rw [List.cons_append, List.cons_append, consLines, consBreaks, hlines, hbreaks]
      exact ⟨rfl, rfl⟩

theorem consChar_append (c : Char) {ls : List Line} (more : ls ≠ []) (later : List Line) :
    consChar c (ls ++ later) = consChar c ls ++ later := by
  cases ls with
  | nil => exact absurd rfl more
  | cons line rest => rfl

/-- A line feed between two texts keeps their lines apart, unless the first text ends in a carriage
return, which would go with the line feed. -/
theorem lines_append_feed {a : Text} (bare : a.getLast? ≠ some '\r') (b : Text) :
    lines (a ++ '\n' :: b) = lines a ++ lines b := by
  have tail {c : Char} {rest : Text} (bare : (c :: rest).getLast? ≠ some '\r') :
      rest.getLast? ≠ some '\r' := by
    intro last
    rw [List.getLast?_cons, last] at bare
    exact bare rfl
  fun_induction lines a with
  | case1 => rfl
  | case2 rest ih => exact congrArg (List.cons []) (ih (tail (tail bare)))
  | case3 rest ih => exact congrArg (List.cons []) (ih (tail bare))
  | case4 c rest hcrlf hfeed ih =>
      have crlf : c = '\r' → (rest ++ '\n' :: b).head? ≠ some '\n' := by
        intro hc hhead
        cases rest with
        | nil => exact bare (congrArg some hc)
        | cons d rest => exact hcrlf rest hc (by rw [Option.some.inj hhead])
      rw [List.cons_append, (lines_cons hfeed crlf).1, ih (tail bare),
        consChar_append c (lines_ne_nil rest)]

theorem IsCut.ne_nil {ls : List Line} {bs : List LineBreak} (cut : IsCut ls bs) : ls ≠ [] := by
  cases cut with
  | last _ => exact List.cons_ne_nil _ _
  | next _ _ _ => exact List.cons_ne_nil _ _

theorem weave_cons {line : Line} {b : LineBreak} {rest : List Line} {bs : List LineBreak}
    (more : rest ≠ []) : weave (line :: rest) (b :: bs) = line ++ b.text ++ weave rest bs := by
  cases rest with
  | nil => exact absurd rfl more
  | cons next later => rfl

/-- Weaving lines and breaks and cutting again gives the same lines and breaks. -/
theorem lines_weave {ls : List Line} {bs : List LineBreak} (cut : IsCut ls bs) :
    lines (weave ls bs) = ls ∧ lineBreaks (weave ls bs) = bs := by
  induction cut with
  | last feed => exact lines_of_no_feed feed
  | @next line b rest bs feed bare cut ih =>
      obtain ⟨hlines, hbreaks⟩ := ih
      obtain ⟨cutLines, cutBreaks⟩ := lines_append_break (weave rest bs) feed bare
      rw [weave_cons cut.ne_nil, cutLines, cutBreaks, hlines, hbreaks]
      exact ⟨rfl, rfl⟩

/-! ### Every cut is such a cut -/

/-- Putting a character that is no part of a break in front keeps a cut. -/
theorem IsCut.consChar {c : Char} {ls : List Line} {bs : List LineBreak} (cut : IsCut ls bs)
    (feed : c ≠ '\n') (crlf : c = '\r' → (weave ls bs).head? ≠ some '\n') :
    IsCut (consChar c ls) bs := by
  cases cut with
  | last hline => exact .last (by simpa [feed.symm] using hline)
  | @next line b rest bs hline bare cut =>
      refine .next (by simpa [feed.symm] using hline) ?_ cut
      intro hb hlast
      cases line with
      | nil =>
          -- The new character is all of the line, and a bare line feed follows it.
          subst hb
          obtain rfl : c = '\r' := by simpa using hlast
          refine crlf rfl ?_
          cases cut <;> rfl
      | cons d line => exact bare hb (by simpa using hlast)

/-- The lines and breaks of a text are a cut. -/
theorem isCut_lines (s : Text) : IsCut (lines s) (lineBreaks s) := by
  fun_induction lines s with
  | case1 => exact .last (List.not_mem_nil)
  | case2 rest ih => exact .next List.not_mem_nil (fun h => by cases h) ih
  | case3 rest ih => exact .next List.not_mem_nil (fun _ h => by cases h) ih
  | case4 c rest hcrlf hfeed ih =>
      rw [lineBreaks.eq_4 c rest hcrlf hfeed]
      refine ih.consChar hfeed ?_
      rw [weave_lines]
      intro hc hhead
      cases rest with
      | nil => cases hhead
      | cons d rest => exact hcrlf rest hc (by rw [Option.some.inj hhead])

/-! ### Editing lines -/

/-- The second line takes the place of the first without harm to any break: it has no new line
feed, and no carriage return at its end that was not there. -/
structure KeepsBreaks (line line' : Line) : Prop where
  feed : '\n' ∉ line → '\n' ∉ line'
  bare : line'.getLast? = some '\r' → line.getLast? = some '\r'

theorem KeepsBreaks.refl (line : Line) : KeepsBreaks line line :=
  ⟨id, id⟩

/-- The end of a line may take its place, and a text without line feeds may stand in front of
it, as long as something of the line is left. -/
theorem KeepsBreaks.append {line rest : Line} {front : Text} (isEnd : rest <:+ line)
    (feed : '\n' ∉ front) (bare : rest = [] → front = []) : KeepsBreaks line (front ++ rest) := by
  obtain ⟨start, rfl⟩ := isEnd
  constructor
  · intro hline
    rw [List.mem_append]
    rintro (h | h)
    · exact feed h
    · exact hline (List.mem_append_right _ h)
  · intro hlast
    cases hrest : rest.getLast? with
    | none =>
        rw [List.getLast?_eq_none_iff] at hrest
        rw [hrest, bare hrest] at hlast
        cases hlast
    | some c =>
        rw [List.getLast?_append, hrest] at hlast ⊢
        exact hlast

/-- Lines edited in place still are a cut. -/
theorem IsCut.edit {ls ls' : List Line} {bs : List LineBreak} (cut : IsCut ls bs)
    (keeps : List.Forall₂ KeepsBreaks ls ls') : IsCut ls' bs := by
  induction cut generalizing ls' with
  | last feed =>
      obtain _ | ⟨keep, ⟨⟩⟩ := keeps
      exact .last (keep.feed feed)
  | next feed bare _ ih =>
      obtain _ | ⟨keep, later⟩ := keeps
      exact .next (keep.feed feed) (fun hb hlast => bare hb (keep.bare hlast)) (ih later)

/-- Editing the lines of a text in place gives a text with the edited lines and the same breaks. -/
theorem lines_weave_edit {s : Text} {ls : List Line}
    (keeps : List.Forall₂ KeepsBreaks (lines s) ls) :
    lines (weave ls (lineBreaks s)) = ls ∧ lineBreaks (weave ls (lineBreaks s)) = lineBreaks s :=
  lines_weave ((isCut_lines s).edit keeps)

end Dragonstone
