/-
# Formatting a second time

A formatted text should need no further edits.  The formatter replaces every space of Unicode in
front of a line, but it recognises branches, terminators and openers behind the six blanks of the
grammar only.  A keyword behind another space is overlooked the first time and read the second
time, and then the lines after it move.

So formatting settles at once exactly if the levels of the lines of code, read off the text as it
is, are those of the text without its leading space.  This holds in particular where lines of code
are indented by blanks.  Since formatting leaves blanks in front of every line of code, a second
run always settles.
-/

import Dragonstone.Proofs.Indentation.Applied

namespace Dragonstone

open Block

/-- The levels of the lines of code, in order. -/
def Layout.codeLevels (l : Layout) : List Line → List Nat
  | [] => []
  | line :: rest =>
    if keepsLayout line l.depth then (l.next line).codeLevels rest
    else ownLevel (mask line) l.level :: (l.next line).codeLevels rest

/-! ### Lines that stand in their places -/

/-- A line needs no edit exactly if it stands in its place. -/
theorem snd_step_eq_none_iff (width n : Nat) (l : Layout) (line : Line) :
    (l.step width n line).2 = none ↔ l.place width line = line := by
  unfold Layout.step Layout.place
  by_cases hkeep : keepsLayout line l.depth = true
  · rw [if_pos hkeep, if_pos hkeep]
    exact iff_of_true rfl rfl
  · rw [if_neg hkeep, if_neg hkeep]
    simp only [reindent?]
    generalize indentation width (ownLevel (mask line) l.level) = wanted
    constructor
    · intro hnone
      have hsame : leadingSpace line = wanted := by
        by_contra hne
        rw [if_neg hne] at hnone
        cases hnone
      rw [← hsame, leadingSpace_append_ink]
    · intro hplace
      have hsame : leadingSpace line = wanted := by
        rw [← List.append_left_inj (ink line), leadingSpace_append_ink, hplace]
      rw [if_pos hsame]

/-- Lines need no edits exactly if all of them stand in their places. -/
theorem edits_eq_nil_iff (width n : Nat) (l : Layout) (ls : List Line) :
    Layout.edits width n l ls = [] ↔ l.placed width ls = ls := by
  induction ls generalizing n l with
  | nil => exact iff_of_true rfl rfl
  | cons line rest ih =>
      simp only [Layout.edits, Layout.placed, fst_step, List.append_eq_nil_iff, List.cons.injEq,
        Option.toList_eq_nil_iff, snd_step_eq_none_iff, ih]

/-- A text needs no edits exactly if applying them gives the text itself. -/
theorem formatEdits_eq_nil_iff (width : Nat) (text : Text) :
    formatEdits width text = [] ↔ applyEdits text (formatEdits width text) = .ok text := by
  rw [applyEdits_formatEdits, formatEdits, edits_eq_nil_iff]
  constructor
  · intro hplaced
    rw [hplaced, weave_lines]
  · intro hsame
    have hweave := Except.ok.inj hsame
    have hlines := (lines_weave_edit (keepsBreaks_placed width {} (lines text))).1
    rw [hweave] at hlines
    exact hlines.symm

/-! ### Reading a line again -/

theorem ownLevel_mask_skipBlanks (line : Line) (level : Nat) :
    ownLevel (mask (skipBlanks line)) level = ownLevel (mask line) level := by
  apply apply_mask_skipBlanks (f := fun masked => ownLevel masked level)
  intro c rest hc
  simp only [ownLevel, branch?_cons hc, isTerminator_cons hc]

theorem nextLevel_mask_skipBlanks (line : Line) (own : Nat) :
    nextLevel (mask (skipBlanks line)) own = nextLevel (mask line) own := by
  apply apply_mask_skipBlanks (f := fun masked => nextLevel masked own)
  intro c rest hc
  simp only [nextLevel, branch?_cons hc, opener?_cons hc,
    closesInline_cons (isSpace_of_isBlank hc)]

theorem ink_ink (line : Line) : ink (ink line) = ink line :=
  dropWhile_ink (fun _ hc => hc) line

theorem keepsLayout_of_ink_eq {a b : Line} (h : ink a = ink b) (depth : Int) :
    keepsLayout a depth = keepsLayout b depth := by
  have hfirst : firstInk a = firstInk b := congrArg List.head? h
  rw [keepsLayout, keepsLayout, isSkipped, isSkipped, hfirst]

/-- The formatter reads two lines alike: they have the same ink, and if they are code, no space
but blanks in front of it tells them apart. -/
structure ReadAlike (depth : Int) (a b : Line) : Prop where
  ink : ink a = ink b
  blanks : keepsLayout a depth = false → skipBlanks a = skipBlanks b

namespace ReadAlike

variable {l : Layout} {a b : Line}

/-- Lines of code that are read alike have one level. -/
theorem ownLevel_eq {depth : Int} (alike : ReadAlike depth a b)
    (code : keepsLayout a depth = false) (level : Nat) :
    ownLevel (mask a) level = ownLevel (mask b) level := by
  rw [← ownLevel_mask_skipBlanks a, alike.blanks code, ownLevel_mask_skipBlanks]

/-- After lines that are read alike the formatter knows the same. -/
theorem next_eq (alike : ReadAlike l.depth a b) : l.next a = l.next b := by
  have hdepth : scanComments a l.depth = scanComments b l.depth := by
    rw [← scanComments_ink a, alike.ink, scanComments_ink]
  unfold Layout.next
  rw [hdepth, ← keepsLayout_of_ink_eq alike.ink]
  cases hkeep : keepsLayout a l.depth with
  | true => rfl
  | false =>
      have hlevel (own : Nat) : nextLevel (mask a) own = nextLevel (mask b) own := by
        rw [← nextLevel_mask_skipBlanks a, alike.blanks hkeep, nextLevel_mask_skipBlanks]
      rw [hlevel, alike.ownLevel_eq hkeep]

/-- Lines of which the first are read alike have the same levels if the later ones have. -/
theorem codeLevels_cons (alike : ReadAlike l.depth a b) {as bs : List Line}
    (later : (l.next b).codeLevels as = (l.next b).codeLevels bs) :
    l.codeLevels (a :: as) = l.codeLevels (b :: bs) := by
  rw [Layout.codeLevels, Layout.codeLevels, alike.next_eq, later,
    ← keepsLayout_of_ink_eq alike.ink]
  cases hkeep : keepsLayout a l.depth with
  | true => rfl
  | false => rw [alike.ownLevel_eq hkeep]

end ReadAlike

/-- A line in its place is read like its ink alone. -/
theorem readAlike_place (width : Nat) (l : Layout) (line : Line) :
    ReadAlike l.depth (l.place width line) (ink line) := by
  constructor
  · rw [ink_place, ink_ink]
  · intro hcode
    have hline : ¬ keepsLayout line l.depth = true := by
      intro hkeep
      rw [Layout.place, if_pos hkeep, hkeep] at hcode
      cases hcode
    have hblanks : ∀ c ∈ indentation width (ownLevel (mask line) l.level), isBlank c = true := by
      intro c member
      rw [eq_space_of_mem_indentation member]
      rfl
    rw [Layout.place, if_neg hline, skipBlanks, List.dropWhile_append_of_pos hblanks, skipBlanks]

/-- A line with nothing but blanks in front of its ink is read like its ink alone. -/
theorem readAlike_ink {line : Line} (depth : Int)
    (blanks : isSkipped line = false → ∀ c ∈ leadingSpace line, isBlank c = true) :
    ReadAlike depth line (ink line) := by
  constructor
  · exact (ink_ink line).symm
  · intro hcode
    rw [keepsLayout, Bool.or_eq_false_iff] at hcode
    calc skipBlanks line
        = (leadingSpace line ++ ink line).dropWhile isBlank := by
          rw [leadingSpace_append_ink, skipBlanks]
      _ = skipBlanks (ink line) := List.dropWhile_append_of_pos (blanks hcode.2)

/-! ### The second run -/

/-- The second run knows the depth of comments that the first one knew. -/
theorem depth_next_ink {l again : Layout} (depth : again.depth = l.depth) (line : Line) :
    (again.next (ink line)).depth = (l.next line).depth := by
  rw [depth_next, depth_next, scanComments_ink, depth]

/-- Two levels have one indentation only if they are the same or indentations are empty. -/
theorem indentation_eq_iff (width m n : Nat) :
    indentation width m = indentation width n ↔ width = 0 ∨ m = n := by
  constructor
  · intro h
    have hlength : width * m = width * n := by simpa [indentation] using congrArg List.length h
    rcases Nat.eq_zero_or_pos width with hzero | hpos
    · exact Or.inl hzero
    · exact Or.inr (Nat.eq_of_mul_eq_mul_left hpos hlength)
  · rintro (rfl | rfl)
    · rw [indentation, indentation, Nat.zero_mul, Nat.zero_mul]
    · rfl

/-- In its place, a line stays where it is exactly if it is kept, or if its level is the one that
its ink has. -/
theorem place_place_iff (width : Nat) {l again : Layout} (depth : again.depth = l.depth)
    (line : Line) :
    again.place width (l.place width line) = l.place width line ↔
      keepsLayout line l.depth = true ∨ width = 0 ∨
        ownLevel (mask line) l.level = ownLevel (mask (ink line)) again.level := by
  have hkept : keepsLayout (l.place width line) l.depth = keepsLayout line l.depth :=
    keepsLayout_of_ink_eq (ink_place width l line) l.depth
  cases hkeep : keepsLayout line l.depth with
  | true =>
      have hagain : again.place width (l.place width line) = l.place width line := by
        rw [Layout.place, depth, hkept, hkeep]
        rfl
      simp [hagain]
  | false =>
      have hlevel : ownLevel (mask (l.place width line)) again.level =
          ownLevel (mask (ink line)) again.level :=
        (readAlike_place width l line).ownLevel_eq (hkept.trans hkeep) again.level
      have hplace : l.place width line =
          indentation width (ownLevel (mask line) l.level) ++ ink line := by
        rw [Layout.place, hkeep]
        rfl
      have hagain : again.place width (l.place width line) =
          indentation width (ownLevel (mask (ink line)) again.level) ++ ink line := by
        rw [Layout.place, depth, hkept, hkeep, hlevel, ink_place]
        rfl
      rw [hagain, hplace, List.append_left_inj, indentation_eq_iff]
      simp only [Bool.false_eq_true, false_or]
      exact or_congr_right eq_comm

/-- Formatted lines stand in their places exactly if the levels that the first run gave them are
those of their ink. -/
theorem placed_placed_iff (width : Nat) {l again : Layout} (depth : again.depth = l.depth)
    (ls : List Line) :
    again.placed width (l.placed width ls) = l.placed width ls ↔
      width = 0 ∨ l.codeLevels ls = again.codeLevels (ls.map ink) := by
  induction ls generalizing l again with
  | nil => simp [Layout.placed, Layout.codeLevels]
  | cons line rest ih =>
      have hnext : again.next (l.place width line) = again.next (ink line) :=
        ReadAlike.next_eq (depth ▸ readAlike_place width l line)
      have hdepth := depth_next_ink depth line
      have hkept : keepsLayout (ink line) again.depth = keepsLayout line l.depth := by
        rw [depth, keepsLayout_of_ink_eq (ink_ink line)]
      simp only [Layout.placed, List.cons.injEq, List.map_cons, Layout.codeLevels, hkept, hnext,
        ih hdepth, place_place_iff width depth]
      cases keepsLayout line l.depth with
      | true => simp
      | false => simp [or_and_left]

/-- Formatted lines of code have the levels of their ink. -/
theorem codeLevels_placed (width : Nat) {l again : Layout} (depth : again.depth = l.depth)
    (ls : List Line) :
    again.codeLevels (l.placed width ls) = again.codeLevels (ls.map ink) := by
  induction ls generalizing l again with
  | nil => rfl
  | cons line rest ih =>
      have alike : ReadAlike again.depth (l.place width line) (ink line) :=
        depth ▸ readAlike_place width l line
      exact alike.codeLevels_cons (ih (depth_next_ink depth line))

/-- Lines of code behind blanks have the levels of their ink. -/
theorem codeLevels_ink (l : Layout) {ls : List Line}
    (blanks : ∀ line ∈ ls, isSkipped line = false → ∀ c ∈ leadingSpace line, isBlank c = true) :
    l.codeLevels ls = l.codeLevels (ls.map ink) := by
  induction ls generalizing l with
  | nil => rfl
  | cons line rest ih =>
      have alike : ReadAlike l.depth line (ink line) :=
        readAlike_ink l.depth (blanks line List.mem_cons_self)
      have hlater : (l.next (ink line)).codeLevels rest =
          (l.next (ink line)).codeLevels (rest.map ink) := by
        apply ih
        intro other member
        exact blanks other (List.mem_cons_of_mem line member)
      exact alike.codeLevels_cons hlater

/-- A formatted text needs no edits exactly if the levels of its lines of code, as first read, are
those of their ink. -/
theorem formatEdits_again_iff {width : Nat} {text once : Text}
    (applied : applyEdits text (formatEdits width text) = .ok once) :
    formatEdits width once = [] ↔
      width = 0 ∨ Layout.codeLevels {} (lines text) = Layout.codeLevels {} ((lines text).map ink)
      := by
  rw [applyEdits_formatEdits] at applied
  have hlines := (lines_weave_edit (keepsBreaks_placed width {} (lines text))).1
  rw [Except.ok.inj applied] at hlines
  rw [formatEdits, edits_eq_nil_iff, hlines]
  exact placed_placed_iff width rfl (lines text)

/-- When formatting settles.  A formatted text needs no further edits, and so stays as it is,
exactly if the levels of the lines of code are the same with and without the leading space, or if
there are no indentations.  This is so if no line of code has a space in front of it that is not
blank.  A text that was formatted twice never needs further edits. -/
theorem formatting_settles_iff (width : Nat) (text : Text) :
    ∃ once, applyEdits text (formatEdits width text) = .ok once ∧
      (formatEdits width once = [] ↔
        width = 0 ∨
          Layout.codeLevels {} (lines text) = Layout.codeLevels {} ((lines text).map ink)) ∧
      (applyEdits once (formatEdits width once) = .ok once ↔ formatEdits width once = []) ∧
      ((∀ line ∈ lines text, isSkipped line = false → (leadingSpace line).all isBlank = true) →
        formatEdits width once = []) ∧
      ∃ twice, applyEdits once (formatEdits width once) = .ok twice ∧
        formatEdits width twice = [] := by
  have applied := applyEdits_formatEdits width text
  refine ⟨_, applied, formatEdits_again_iff applied, (formatEdits_eq_nil_iff width _).symm, ?_,
    _, applyEdits_formatEdits width _, ?_⟩
  · intro blanks
    rw [formatEdits_again_iff applied]
    refine Or.inr (codeLevels_ink {} ?_)
    intro line member code
    exact List.all_eq_true.mp (blanks line member code)
  · -- The first run has left nothing but blanks in front of lines of code.
    rw [formatEdits_again_iff (applyEdits_formatEdits width _)]
    have hlines := (lines_weave_edit (keepsBreaks_placed width {} (lines text))).1
    right
    rw [hlines, map_ink_placed]
    exact codeLevels_placed width rfl (lines text)

/-- Blanks of any kind do no harm. -/
theorem formatting_settles_behind_tab :
    ∃ once, applyEdits "if a\r\n\t \u000bb\nend".toList
        (formatEdits 4 "if a\r\n\t \u000bb\nend".toList) = .ok once ∧
      formatEdits 4 once = [] := by
  obtain ⟨once, applied, _, _, settles, _⟩ :=
    formatting_settles_iff 4 "if a\r\n\t \u000bb\nend".toList
  exact ⟨once, applied, settles (by decide)⟩

/-- A no-break space hides the opener from the first run. -/
theorem formatting_does_not_settle :
    formatEdits 4 (formatted 4 "\u00a0if x\nfoo".toList) ≠ [] := by
  decide +kernel

end Dragonstone
