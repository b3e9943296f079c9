/-
# Formatted lines

Formatting is described twice: one pass makes edits, another applies them, and each cuts the text
into lines on its own.  This module joins the two.  Applying the edits of a text never fails, and
it puts every line of code behind the indentation of its level and leaves every other line alone.
`Layout.placed` says so line by line, without edits.

The main statement is what formatting keeps: the number of lines, all line breaks, everything of a
line after its leading space, and whole lines that are no code or begin inside a comment.
-/

import Dragonstone.Indentation
import Dragonstone.Proofs.LeadingSpace.Line
import Dragonstone.Proofs.Text.Weaving

namespace Dragonstone

open Block

/-! ### The formatter without edits -/

/-- What the formatter knows after a line. -/
def Layout.next (l : Layout) (line : Line) : Layout :=
  let depth := (scanComments line l.depth).depth
  if keepsLayout line l.depth then ⟨l.level, depth⟩
  else ⟨nextLevel (mask line) (ownLevel (mask line) l.level), depth⟩

/-- What the formatter knows after some lines. -/
def Layout.after (l : Layout) (ls : List Line) : Layout :=
  ls.foldl Layout.next l

/-- How a line stands in the formatted text. -/
def Layout.place (width : Nat) (l : Layout) (line : Line) : Line :=
  if keepsLayout line l.depth then line
  else indentation width (ownLevel (mask line) l.level) ++ ink line

/-- How lines stand in the formatted text. -/
def Layout.placed (width : Nat) (l : Layout) : List Line → List Line
  | [] => []
  | line :: rest => l.place width line :: (l.next line).placed width rest

/-- The pass that makes edits carries the same knowledge. -/
theorem fst_step (width n : Nat) (line : Line) (l : Layout) :
    (l.step width n line).1 = l.next line := by
  unfold Layout.step Layout.next
  split <;> rfl

theorem depth_next (l : Layout) (line : Line) :
    (l.next line).depth = (scanComments line l.depth).depth := by
  unfold Layout.next
  split <;> rfl

/-! ### Applying the edits -/

/-- A natural line number is taken as it is, as far as there are lines. -/
theorem Edit.lineIndex?_of_eq_natCast {e : Edit} {n : Nat} (line : e.range.start.line = n)
    (count : Nat) : e.lineIndex? count = .ok (if n < count then some n else none) := by
  rw [Edit.lineIndex?, line]
  by_cases hinside : n < count
  · rw [if_neg (by omega), if_pos (Int.natCast_nonneg n), if_pos hinside, Int.toNat_natCast]
  · rw [if_pos (by omega), if_neg hinside]

/-- An edit of a line among the others changes this line only. -/
theorem applyEdit_inLine (before : List Line) (line : Line) (behind : List Line)
    (start stop : Nat) (wanted : Text) :
    applyEdit (before ++ line :: behind) ⟨Range.inLine before.length start stop, wanted⟩ =
      .ok (before ++ spliceLine line ⟨Range.inLine before.length start stop, wanted⟩ :: behind) := by
  have hinside : before.length < (before ++ line :: behind).length := by
    simp
  have hmodify (f : Line → Line) :
      (before ++ line :: behind).modify before.length f = before ++ f line :: behind := by
    rw [List.modify_eq_take_cons_drop (by simp)]
    simp
  rw [applyEdit, Edit.lineIndex?_of_eq_natCast rfl, if_pos hinside]
  exact congrArg Except.ok (hmodify _)

/-- Replacing leading space puts the ink behind the new one. -/
theorem spliceLine_leadingSpace (n : Nat) (line wanted : Text) :
    spliceLine line ⟨Range.inLine n 0 (leadingSpace line).length, wanted⟩ = wanted ++ ink line := by
  have hink : line.drop (leadingSpace line).length = ink line := by
    calc line.drop (leadingSpace line).length
        = (leadingSpace line ++ ink line).drop (leadingSpace line).length := by
          rw [leadingSpace_append_ink]
      _ = ink line := List.drop_left
  simp only [spliceLine, Range.inLine, upTo_natCast, List.take_zero, fromOn_natCast, hink,
    List.nil_append]

/-- The edit that reindents a line, if there is one, puts the ink behind the wanted space. -/
theorem applyEdit_reindent (before : List Line) (line : Line) (behind : List Line)
    (wanted : Text) :
    (reindent? before.length line wanted).toList.foldlM applyEdit (before ++ line :: behind) =
      .ok (before ++ (wanted ++ ink line) :: behind) := by
  unfold reindent?
  by_cases hsame : leadingSpace line = wanted
  · rw [if_pos hsame, ← hsame, leadingSpace_append_ink]
    rfl
  · rw [if_neg hsame, ← spliceLine_leadingSpace before.length, ← applyEdit_inLine]
    simp

/-- The edit of a line, if there is one, gives the line its place among the others. -/
theorem applyEdit_step (width : Nat) (l : Layout) (before : List Line) (line : Line)
    (behind : List Line) :
    (l.step width before.length line).2.toList.foldlM applyEdit (before ++ line :: behind) =
      .ok (before ++ l.place width line :: behind) := by
  unfold Layout.step Layout.place
  by_cases hkeep : keepsLayout line l.depth = true
  · rw [if_pos hkeep, if_pos hkeep]
    rfl
  · rw [if_neg hkeep, if_neg hkeep]
    exact applyEdit_reindent before line behind _

/-- The edits of lines, applied from the last one to the first, give every line its place. -/
theorem applyEdits_reverse (width : Nat) (l : Layout) (before ls : List Line) :
    (Layout.edits width before.length l ls).reverse.foldlM applyEdit (before ++ ls) =
      .ok (before ++ l.placed width ls) := by
  induction ls generalizing l before with
  | nil => rfl
  | cons line rest ih =>
      -- The edits of the later lines come first; they see this line as one of those before.
      have hlater := ih (l.next line) (before ++ [line])
      have hhere := applyEdit_step width l before line ((l.next line).placed width rest)
      have hsingle : (l.step width before.length line).2.toList.reverse =
          (l.step width before.length line).2.toList := by
        cases (l.step width before.length line).2 <;> rfl
      simp only [List.length_append, List.length_singleton, List.append_assoc,
        List.singleton_append] at hlater
      simp only [Layout.edits, fst_step, List.reverse_append, List.foldlM_append, hlater, hsingle]
      exact hhere

/-! ### The order of the edits -/

/-- The edit of a line replaces the space in front of it. -/
theorem range_of_mem_step {width n : Nat} {line : Line} {l : Layout} {e : Edit}
    (member : e ∈ (l.step width n line).2) :
    e.range = Range.inLine n 0 (leadingSpace line).length := by
  unfold Layout.step at member
  split at member
  · cases member
  · simp only [reindent?] at member
    split at member
    · cases member
    · cases member
      rfl

/-- Every edit of the lines from line `n` on replaces the space in front of one of them. -/
theorem exists_of_mem_edits {width n : Nat} {l : Layout} {ls : List Line} {e : Edit}
    (member : e ∈ Layout.edits width n l ls) :
    ∃ i line, ls[i]? = some line ∧
      e.range = Range.inLine (n + i) 0 (leadingSpace line).length := by
  induction ls generalizing n l with
  | nil => cases member
  | cons line rest ih =>
      simp only [Layout.edits, List.mem_append, Option.mem_toList] at member
      rcases member with here | later
      · exact ⟨0, line, rfl, range_of_mem_step here⟩
      · obtain ⟨i, other, at_, range⟩ := ih later
        rw [Nat.add_assoc, Nat.add_comm 1 i] at range
        exact ⟨i + 1, other, at_, range⟩

theorem le_line_of_mem_edits {width n : Nat} {l : Layout} {ls : List Line} {e : Edit}
    (member : e ∈ Layout.edits width n l ls) : (n : Int) ≤ e.range.start.line := by
  obtain ⟨i, line, _, range⟩ := exists_of_mem_edits member
  rw [range]
  exact Int.ofNat_le.mpr (Nat.le_add_right n i)

/-- The edits of lines stand in the order of their lines, one on a line. -/
theorem pairwise_edits (width n : Nat) (l : Layout) (ls : List Line) :
    (Layout.edits width n l ls).Pairwise fun a b => a.range.start.line < b.range.start.line := by
  induction ls generalizing n l with
  | nil => exact List.Pairwise.nil
  | cons line rest ih =>
      simp only [Layout.edits]
      rw [List.pairwise_append]
      refine ⟨?_, ih _ _, ?_⟩
      · cases (l.step width n line).2 <;> simp
      · intro a here b later
        have hhere : a.range.start.line = n := by
          rw [range_of_mem_step (Option.mem_toList.mp here)]
          rfl
        have hlater := le_line_of_mem_edits later
        omega

theorem Edit.notBefore_iff {a b : Edit} :
    a.notBefore b = true ↔
      b.range.start.line < a.range.start.line ∨
        (b.range.start.line = a.range.start.line ∧
          b.range.start.character ≤ a.range.start.character) := by
  simp only [Edit.notBefore, Position.before, Bool.not_eq_true', Bool.or_eq_false_iff,
    Bool.and_eq_false_iff, decide_eq_false_iff_not, beq_eq_false_iff_ne]
  omega

/-- Sorting puts edits in the order in which they are applied. -/
theorem pairwise_mergeSort_notBefore (edits : List Edit) :
    (edits.mergeSort Edit.notBefore).Pairwise fun a b => Edit.notBefore a b = true := by
  apply List.pairwise_mergeSort
  · intro a b c hab hbc
    rw [Edit.notBefore_iff] at hab hbc ⊢
    omega
  · intro a b
    rw [Bool.or_eq_true, Edit.notBefore_iff, Edit.notBefore_iff]
    omega

/-- Edits in the order of their lines are applied in the opposite order. -/
theorem mergeSort_notBefore {edits : List Edit}
    (ordered : edits.Pairwise fun a b => a.range.start.line < b.range.start.line) :
    edits.mergeSort Edit.notBefore = edits.reverse := by
  have hreversed : edits.reverse.Pairwise fun a b => Edit.notBefore a b = true := by
    rw [List.pairwise_reverse]
    exact ordered.imp fun hab => Edit.notBefore_iff.mpr (Or.inl hab)
  have hperm : (edits.mergeSort Edit.notBefore).Perm edits.reverse :=
    (List.mergeSort_perm _ _).trans (List.reverse_perm _).symm
  refine List.Perm.eq_of_pairwise ?_ (pairwise_mergeSort_notBefore edits) hreversed hperm
  intro a b memSorted memReversed hab hba
  -- Neither starts before the other, so both stand on one line, where there is only one edit.
  have hline : a.range.start.line = b.range.start.line := by
    rw [Edit.notBefore_iff] at hab hba
    omega
  obtain ⟨i, hi, rfl⟩ := List.getElem_of_mem (List.mem_mergeSort.mp memSorted)
  obtain ⟨j, hj, rfl⟩ := List.getElem_of_mem (List.mem_reverse.mp memReversed)
  rw [List.pairwise_iff_getElem] at ordered
  rcases Nat.lt_trichotomy i j with hij | rfl | hij
  · exact absurd hline (Int.ne_of_lt (ordered i j hi hj hij))
  · rfl
  · exact absurd hline.symm (Int.ne_of_lt (ordered j i hj hi hij))

/-- Applying the edits of a text succeeds and gives every line its place. -/
theorem applyEdits_formatEdits (width : Nat) (text : Text) :
    applyEdits text (formatEdits width text) =
      .ok (weave (Layout.placed width {} (lines text)) (lineBreaks text)) := by
  have hsort : (formatEdits width text).mergeSort Edit.notBefore =
      (formatEdits width text).reverse :=
    mergeSort_notBefore (pairwise_edits width 0 {} (lines text))
  have hplaced : (formatEdits width text).reverse.foldlM applyEdit (lines text) =
      .ok (Layout.placed width {} (lines text)) :=
    applyEdits_reverse width {} [] (lines text)
  rw [applyEdits, hsort, hplaced]
  rfl

/-! ### What formatting keeps -/

theorem eq_space_of_mem_indentation {width level : Nat} {c : Char}
    (member : c ∈ indentation width level) : c = ' ' :=
  List.eq_of_mem_replicate member

theorem ink_indented (width level : Nat) (line : Line) :
    ink (indentation width level ++ ink line) = ink line := by
  have hspaces : ∀ c ∈ indentation width level, isSpace c = true := by
    intro c member
    rw [eq_space_of_mem_indentation member]
    rfl
  rw [ink, List.dropWhile_append_of_pos hspaces]
  exact dropWhile_ink (fun _ hc => hc) line

theorem ink_place (width : Nat) (l : Layout) (line : Line) :
    ink (l.place width line) = ink line := by
  unfold Layout.place
  split
  · rfl
  · exact ink_indented width _ line

theorem keepsBreaks_place (width : Nat) (l : Layout) (line : Line) :
    KeepsBreaks line (l.place width line) := by
  unfold Layout.place
  by_cases hkeep : keepsLayout line l.depth = true
  · rw [if_pos hkeep]
    exact KeepsBreaks.refl line
  · rw [if_neg hkeep]
    have hskip : isSkipped line = false := by
      rw [keepsLayout, Bool.or_eq_true, not_or] at hkeep
      exact Bool.eq_false_iff.mpr hkeep.2
    apply KeepsBreaks.append (List.dropWhile_suffix isSpace)
    · intro member
      cases eq_space_of_mem_indentation member
    · intro hink
      exact absurd hink (ink_ne_nil hskip)

theorem keepsBreaks_placed (width : Nat) (l : Layout) (ls : List Line) :
    List.Forall₂ KeepsBreaks ls (l.placed width ls) := by
  induction ls generalizing l with
  | nil => exact List.Forall₂.nil
  | cons line rest ih => exact .cons (keepsBreaks_place width l line) (ih (l.next line))

/-- The place of a line depends on what the formatter knows after the lines before it. -/
theorem getElem?_placed (width : Nat) (l : Layout) (ls : List Line) (i : Nat) :
    (l.placed width ls)[i]? = ls[i]?.map fun line => (l.after (ls.take i)).place width line := by
  induction ls generalizing l i with
  | nil => rfl
  | cons line rest ih =>
      cases i with
      | zero => rfl
      | succ i =>
          simp only [Layout.placed, List.getElem?_cons_succ, List.take_succ_cons]
          exact ih (l.next line) i

theorem length_placed (width : Nat) (l : Layout) (ls : List Line) :
    (l.placed width ls).length = ls.length :=
  (keepsBreaks_placed width l ls).length_eq.symm

theorem map_ink_placed (width : Nat) (l : Layout) (ls : List Line) :
    (l.placed width ls).map ink = ls.map ink := by
  induction ls generalizing l with
  | nil => rfl
  | cons line rest ih =>
      rw [Layout.placed, List.map_cons, List.map_cons, ink_place, ih (l.next line)]

/-- The depth of block comments in front of line `i`. -/
def depthBefore (ls : List Line) (i : Nat) : Int :=
  (ls.take i).foldl (fun depth line => (scanComments line depth).depth) 0

/-- The formatter knows the depth of block comments in front of every line. -/
theorem depth_after (l : Layout) (ls : List Line) :
    (l.after ls).depth =
      ls.foldl (fun depth line => (scanComments line depth).depth) l.depth := by
  induction ls generalizing l with
  | nil => rfl
  | cons line rest ih =>
      rw [List.foldl_cons, ← depth_next]
      exact ih (l.next line)

/-- Formatting succeeds.  The result has as many lines as the text and the same breaks in the same
order; every line keeps what follows its leading space; and a line that is blank, is a line comment
or begins inside a block comment is left as it was. -/
theorem formatting_keeps_ink_and_breaks (width : Nat) (text : Text) :
    ∃ out, applyEdits text (formatEdits width text) = .ok out ∧
      (lines out).length = (lines text).length ∧ lineBreaks out = lineBreaks text ∧
      (lines out).map ink = (lines text).map ink ∧
      ∀ (i : Nat) (line : Line), (lines text)[i]? = some line →
        firstInk line = none ∨ firstInk line = some '#' ∨ 0 < depthBefore (lines text) i →
        (lines out)[i]? = some line := by
  obtain ⟨hlines, hbreaks⟩ := lines_weave_edit (keepsBreaks_placed width {} (lines text))
  refine ⟨_, applyEdits_formatEdits width text, ?_, hbreaks, ?_, ?_⟩
  · rw [hlines, length_placed]
  · rw [hlines, map_ink_placed]
  · intro i line hline hkept
    have hdepth : (Layout.after {} ((lines text).take i)).depth = depthBefore (lines text) i :=
      depth_after {} ((lines text).take i)
    have hkeep : keepsLayout line (Layout.after {} ((lines text).take i)).depth = true := by
      rw [keepsLayout, hdepth, isSkipped]
      rcases hkept with hfirst | hfirst | hopen
      · rw [hfirst, Bool.or_true]
      · rw [hfirst]
        exact Bool.or_true _
      · rw [decide_eq_true hopen, Bool.true_or]
    rw [hlines, getElem?_placed, hline, Option.map_some, Layout.place, if_pos hkeep]

/-- A line comment keeps its layout between lines that are moved. -/
theorem formatting_keeps_line_comment :
    ∃ out, applyEdits "if a\r\n\t # note\r\nb".toList
        (formatEdits 4 "if a\r\n\t # note\r\nb".toList) = .ok out ∧
      (lines out)[1]? = some "\t # note".toList := by
  obtain ⟨out, applied, _, _, _, kept⟩ :=
    formatting_keeps_ink_and_breaks 4 "if a\r\n\t # note\r\nb".toList
  exact ⟨out, applied, kept 1 "\t # note".toList (by decide) (Or.inr (Or.inl (by decide)))⟩

end Dragonstone
