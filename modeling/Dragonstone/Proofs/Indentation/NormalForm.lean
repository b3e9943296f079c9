/-
# Formatting as a normal form

Two texts that differ in nothing but the blanks in front of their lines are formatted to the same
lines, apart from the lines that formatting leaves alone.  The formatter goes through two such texts
side by side: in front of every line it knows the same level and the same depth of comments, because
it reads lines alike that are equal behind their blanks.
-/

import Dragonstone.Proofs.Indentation.Settled

namespace Dragonstone

/-- A line of a text is left as it is: it has no ink, is a line comment, or begins inside a block
comment. -/
def IsLeftAlone (ls : List Line) (i : Nat) (line : Line) : Prop :=
  firstInk line = none ∨ firstInk line = some '#' ∨ 0 < depthBefore ls i

instance (ls : List Line) (i : Nat) (line : Line) : Decidable (IsLeftAlone ls i line) :=
  inferInstanceAs (Decidable (_ ∨ _ ∨ _))

theorem ink_skipBlanks (line : Line) : ink (skipBlanks line) = ink line := by
  apply apply_dropWhile (f := ink)
  intro c rest hc
  exact List.dropWhile_cons_of_pos (isSpace_of_isBlank hc)

/-- Lines that are equal behind their blanks are read alike at any depth. -/
theorem readAlike_of_skipBlanks {a b : Line} (same : skipBlanks a = skipBlanks b) (depth : Int) :
    ReadAlike depth a b := by
  constructor
  · rw [← ink_skipBlanks a, same, ink_skipBlanks]
  · exact fun _ => same

/-- Side by side through lines that are equal behind their blanks, the formatter knows the same. -/
theorem after_eq_of_skipBlanks (l : Layout) {as bs : List Line}
    (same : as.map skipBlanks = bs.map skipBlanks) : l.after as = l.after bs := by
  induction as generalizing l bs with
  | nil =>
      obtain rfl : bs = [] := by simpa using same
      rfl
  | cons a as ih =>
      obtain _ | ⟨b, bs⟩ := bs
      · cases same
      · rw [List.map_cons, List.map_cons, List.cons.injEq] at same
        obtain ⟨hline, hrest⟩ := same
        have hnext : l.next a = l.next b := (readAlike_of_skipBlanks hline l.depth).next_eq
        calc l.after (a :: as)
            = (l.next a).after as := rfl
          _ = (l.next b).after bs := by rw [hnext, ih (l.next b) hrest]
          _ = l.after (b :: bs) := rfl

/-- Of two lines that are equal behind their blanks, both or none keeps its layout; if none does,
they stand in the same way. -/
theorem place_eq_of_skipBlanks (width : Nat) (l : Layout) {a b : Line}
    (same : skipBlanks a = skipBlanks b) :
    keepsLayout a l.depth = keepsLayout b l.depth ∧
      (keepsLayout a l.depth = false → l.place width a = l.place width b) := by
  have alike : ReadAlike l.depth a b := readAlike_of_skipBlanks same l.depth
  have hkeep : keepsLayout a l.depth = keepsLayout b l.depth :=
    keepsLayout_of_ink_eq alike.ink l.depth
  refine ⟨hkeep, fun hcode => ?_⟩
  have hcode' : keepsLayout b l.depth = false := hkeep ▸ hcode
  calc l.place width a
      = indentation width (ownLevel (mask a) l.level) ++ ink a := by
        rw [Layout.place, hcode]
        rfl
    _ = indentation width (ownLevel (mask b) l.level) ++ ink b := by
        rw [alike.ownLevel_eq hcode, alike.ink]
    _ = l.place width b := by
        rw [Layout.place, hcode']
        rfl

/-- The formatter keeps the layout of exactly those lines that are to be left alone. -/
theorem keepsLayout_iff_isLeftAlone (ls : List Line) (i : Nat) (line : Line) :
    keepsLayout line (Layout.after {} (ls.take i)).depth = true ↔ IsLeftAlone ls i line := by
  have hdepth : (Layout.after {} (ls.take i)).depth = depthBefore ls i := depth_after {} (ls.take i)
  have hskip : isSkipped line = true ↔ firstInk line = none ∨ firstInk line = some '#' := by
    unfold isSkipped
    cases firstInk line <;> simp
  rw [keepsLayout, hdepth, Bool.or_eq_true, decide_eq_true_iff, hskip, IsLeftAlone, or_comm,
    or_assoc]

/-- Formatting gives a normal form.  Two texts with the same breaks whose lines are equal behind
their blanks are formatted to texts with the same breaks, and line by line either both lines are
left alone, each as it was, or none is and the formatted lines are the same. -/
theorem formatting_gives_normal_form (width : Nat) {a b : Text}
    (breaks : lineBreaks a = lineBreaks b)
    (behindBlanks : (lines a).map skipBlanks = (lines b).map skipBlanks) :
    ∃ outA outB, applyEdits a (formatEdits width a) = .ok outA ∧
      applyEdits b (formatEdits width b) = .ok outB ∧
      lineBreaks outA = lineBreaks outB ∧ (lines outA).length = (lines outB).length ∧
      ∀ (i : Nat) (lineA lineB : Line), (lines a)[i]? = some lineA → (lines b)[i]? = some lineB →
        (IsLeftAlone (lines a) i lineA ∧ IsLeftAlone (lines b) i lineB ∧
            (lines outA)[i]? = some lineA ∧ (lines outB)[i]? = some lineB) ∨
          (¬ IsLeftAlone (lines a) i lineA ∧ ¬ IsLeftAlone (lines b) i lineB ∧
            ∃ line, (lines outA)[i]? = some line ∧ (lines outB)[i]? = some line) := by
  obtain ⟨hlinesA, hbreaksA⟩ := lines_weave_edit (keepsBreaks_placed width {} (lines a))
  obtain ⟨hlinesB, hbreaksB⟩ := lines_weave_edit (keepsBreaks_placed width {} (lines b))
  have hlength : (lines a).length = (lines b).length := by
    simpa using congrArg List.length behindBlanks
  refine ⟨_, _, applyEdits_formatEdits width a, applyEdits_formatEdits width b, ?_, ?_, ?_⟩
  · rw [hbreaksA, hbreaksB, breaks]
  · rw [hlinesA, hlinesB, length_placed, length_placed, hlength]
  · intro i lineA lineB hA hB
    have hbefore : Layout.after {} ((lines a).take i) = Layout.after {} ((lines b).take i) := by
      apply after_eq_of_skipBlanks
      rw [List.map_take, List.map_take, behindBlanks]
    have hline : skipBlanks lineA = skipBlanks lineB := by
      have hat := congrArg (·[i]?) behindBlanks
      simpa [hA, hB] using hat
    obtain ⟨hkeep, hplace⟩ :=
      place_eq_of_skipBlanks width (Layout.after {} ((lines b).take i)) hline
    have keptA := keepsLayout_iff_isLeftAlone (lines a) i lineA
    have keptB := keepsLayout_iff_isLeftAlone (lines b) i lineB
    rw [hbefore, hkeep] at keptA
    rw [hlinesA, hlinesB, getElem?_placed, getElem?_placed, hA, hB, hbefore]
    by_cases hleft : IsLeftAlone (lines b) i lineB
    · left
      have hkeepB := keptB.mpr hleft
      refine ⟨keptA.mp hkeepB, hleft, ?_, ?_⟩
      · rw [Option.map_some, Layout.place, hkeep, if_pos hkeepB]
      · rw [Option.map_some, Layout.place, if_pos hkeepB]
    · right
      have hcode : keepsLayout lineA (Layout.after {} ((lines b).take i)).depth = false := by
        rw [hkeep, Bool.eq_false_iff]
        exact fun hkeepB => hleft (keptB.mp hkeepB)
      refine ⟨fun hleftA => hleft (keptB.mp (keptA.mpr hleftA)), hleft, _, ?_, rfl⟩
      rw [Option.map_some, hplace hcode]

/-- The branch, behind two tabs in one text and behind a space and a tab in the other, is the same
line in both results. -/
theorem formatting_gives_normal_form_of_branch :
    ∃ outA outB, applyEdits "if a\r\n\t\telse\n#[\n  c]#".toList
        (formatEdits 4 "if a\r\n\t\telse\n#[\n  c]#".toList) = .ok outA ∧
      applyEdits " if a\r\n \telse\n\t#[\n\u000bc]#".toList
        (formatEdits 4 " if a\r\n \telse\n\t#[\n\u000bc]#".toList) = .ok outB ∧
      ∃ line, (lines outA)[1]? = some line ∧ (lines outB)[1]? = some line := by
  obtain ⟨outA, outB, appliedA, appliedB, _, _, side⟩ :=
    formatting_gives_normal_form 4 (a := "if a\r\n\t\telse\n#[\n  c]#".toList)
      (b := " if a\r\n \telse\n\t#[\n\u000bc]#".toList) (by decide) (by decide)
  refine ⟨outA, outB, appliedA, appliedB, ?_⟩
  obtain ⟨left, _⟩ | ⟨_, _, same⟩ :=
    side 1 "\t\telse".toList " \telse".toList (by decide) (by decide)
  · exact absurd left (by decide)
  · exact same

end Dragonstone
