/-
# Text inside comments

Three passes skip comment text, each for a reason of its own.  The outline and the validation skip a
line that ends inside a block comment or closes one, the formatter skips a line that begins inside
one.  A line that begins inside a comment is skipped by all three: either the comment goes on behind
it, or something on the line closes it.

What such a line leaves behind is the depth of comments after it, and this depends only on how many
markers of each kind it has.  Any other text with as many markers can stand in its place.
-/

import Dragonstone.Proofs.Block.Enclosing
import Dragonstone.Proofs.Validation.ClosedPrefix
import Dragonstone.Proofs.Validation.OneLine
import Dragonstone.Proofs.Lookup.Outline

namespace Dragonstone

open Block

/-! ### One line inside a comment -/

/-- A line that begins inside a comment is comment text. -/
theorem inComment_of_pos {depth : Int} (deep : 0 < depth) (line : Line) :
    (scanComments line depth).inComment = true := by
  simp only [scanComments, Bool.or_eq_true, decide_eq_true_eq]
  omega

/-- The lines have as many markers of each kind as each other. -/
def SameMarkers (a b : Line) : Prop :=
  ∀ kind, markerCount kind a = markerCount kind b

instance (a b : Line) : Decidable (SameMarkers a b) :=
  decidable_of_iff (markerCount .opening a = markerCount .opening b ∧
      markerCount .closing a = markerCount .closing b)
    ⟨fun ⟨opening, closing⟩ kind => by cases kind <;> assumption,
      fun same => ⟨same .opening, same .closing⟩⟩

theorem SameMarkers.scanComments_eq {a b : Line} (same : SameMarkers a b) (depth : Int) :
    scanComments a depth = scanComments b depth := by
  simp only [scanComments, same .opening, same .closing]

/-! ### The passes over a line inside a comment -/

section Passes

variable {front back : List Line} {line other : Line} {n : Nat} {depth : Int} {config : Config}

/-- The outline passes over the line. -/
theorem outlineFrom_interior (deep : 0 < depthAfter depth front) :
    outlineFrom n depth (front ++ line :: back) = outlineFrom n depth front ++
        outlineFrom (n + front.length + 1) (scanComments line (depthAfter depth front)).depth
          back := by
  rw [outlineFrom_append, outlineFrom, inComment_of_pos deep]
  rfl

theorem edits_append (width n : Nat) (l : Layout) (s t : List Line) :
    l.edits width n (s ++ t) =
      l.edits width n s ++ (l.after s).edits width (n + s.length) t := by
  induction s generalizing n l with
  | nil => rfl
  | cons line rest ih =>
      simp only [List.cons_append, Layout.edits, ih, fst_step, List.length_cons,
        List.append_assoc, Nat.add_right_comm n 1, Nat.add_assoc n]
      rfl

/-- The formatter passes over the line, and keeps its level. -/
theorem edits_interior (width : Nat) {l : Layout} (deep : 0 < (l.after front).depth) :
    l.edits width n (front ++ line :: back) = l.edits width n front ++
      Layout.edits width (n + front.length + 1)
        ⟨(l.after front).level, (scanComments line (l.after front).depth).depth⟩ back := by
  have kept : keepsLayout line (l.after front).depth = true := by simp [keepsLayout, deep]
  simp only [edits_append, Layout.edits, Layout.step, kept, if_true]
  rfl

/-- With the nesting of comments off, the validation does the same on both lines. -/
theorem step_eq_of_sameMarkers {p : Progress} (deep : 0 < p.depth) (same : SameMarkers other line)
    (silent : config.reportCommentNesting = false) :
    p.step config n other = p.step config n line := by
  simp only [step_eq, same.scanComments_eq, inComment_of_pos deep, silent, Bool.true_or,
    if_true, Bool.false_eq_true, if_false]

theorem run_interior {p : Progress} (deep : 0 < depthAfter p.depth front)
    (same : SameMarkers other line) (silent : config.reportCommentNesting = false) :
    p.run config n (front ++ other :: back) = p.run config n (front ++ line :: back) := by
  rw [← depth_run config n p front] at deep
  simp only [run_append, Progress.run, step_eq_of_sameMarkers deep same silent]

end Passes

/-! ### A document with another line -/

/-- The document with another text in place of line `n`, between the same breaks. -/
def withLine (text : Text) (n : Nat) (other : Line) : Text :=
  weave ((lines text).set n other) (lineBreaks text)

theorem forall₂_set {α : Type} {R : α → α → Prop} (refl : ∀ a, R a a) {b : α}
    (here : ∀ a, R a b) (s : List α) (n : Nat) : List.Forall₂ R s (s.set n b) := by
  induction s generalizing n with
  | nil => exact .nil
  | cons a s ih =>
      cases n with
      | zero => exact .cons (here a) (List.forall₂_same.mpr fun a _ => refl a)
      | succ n => exact .cons (refl a) (ih n)

/-- A text without line feeds and carriage returns takes the place of a line, and no break moves. -/
theorem lines_withLine (text : Text) (n : Nat) {other : Line} (feed : '\n' ∉ other)
    (carriage : '\r' ∉ other) :
    lines (withLine text n other) = (lines text).set n other ∧
      lineBreaks (withLine text n other) = lineBreaks text := by
  refine lines_weave_edit (forall₂_set KeepsBreaks.refl (fun line => ⟨fun _ => feed, ?_⟩) _ n)
  exact fun last => absurd (List.mem_of_getLast? last) carriage

/-- A list is cut at one of its places, and another item can stand there. -/
theorem exists_cut {α : Type} {s : List α} {n : Nat} {a : α} (at_ : s[n]? = some a) :
    ∃ front back, s = front ++ a :: back ∧ front = s.take n ∧ front.length = n ∧
      ∀ b, s.set n b = front ++ b :: back := by
  obtain ⟨inside, rfl⟩ := List.getElem?_eq_some_iff.mp at_
  have cut (b : α) : s.set n b = s.take n ++ b :: s.drop (n + 1) := by
    rw [List.set_eq_take_append_cons_drop, if_pos inside]
  have same : s = s.take n ++ s[n] :: s.drop (n + 1) := by
    rw [← cut, List.set_getElem_self]
  exact ⟨_, _, same, rfl, List.length_take_of_le (Nat.le_of_lt inside), cut⟩

section Document

variable {config : Config} {text : Text} {n : Nat} {line : Line}

/-- No block that is open at the end was opened on a line inside a comment. -/
theorem line_ne_of_mem_stack (inside : 0 < depthBefore (lines text) n) {frame : Frame}
    (mem : frame ∈ (Progress.run config 0 {} (lines text)).1.stack) : frame.line ≠ n := by
  rw [stack_run] at mem
  obtain none | ⟨p, opens, pushes⟩ := mem_stackAfter mem
  · cases none
  obtain ⟨i, line, _, number, code⟩ := exists_of_mem_partsFrom opens
  rw [line_of_frame? pushes, number, Nat.zero_add]
  rintro rfl
  have deep : 0 < depthAfter 0 ((lines text).take i) := inside
  have skipped : codeForm? (depthAfter 0 ((lines text).take i)) line = none := by
    rw [codeForm?, inComment_of_pos deep]
    rfl
  cases skipped.symm.trans code

theorem unclosedBlocks_set {ls : List Line} {stack : List Frame}
    (elsewhere : ∀ frame ∈ stack, frame.line ≠ n) (other : Line) :
    unclosedBlocks (ls.set n other) stack = unclosedBlocks ls stack := by
  refine List.map_congr_left fun frame mem => ?_
  rw [List.getElem?_set_ne (elsewhere frame (List.mem_reverse.mp mem)).symm]

/-- Whatever is found on a line inside a comment is about the nesting of comments. -/
theorem covers_of_line_eq (at_ : (lines text)[n]? = some line)
    (inside : 0 < depthBefore (lines text) n) {d : Diagnostic} (mem : d ∈ validate config text)
    (here : d.range.start.line = n) : Family.commentNesting.Covers d := by
  obtain ⟨f, found, rfl⟩ := List.mem_map.mp mem
  apply Family.covers_of_family?
  have begins : f.range.start.line = n := here
  simp only [Report.all, List.mem_append] at found
  obtain ((code | blocks) | comments) | brackets := found
  · have onLine : f ∈ (inspect config text).code.filter (Finding.beginsOn n) :=
      List.mem_filter.mpr ⟨code, beq_iff_eq.mpr begins⟩
    rw [filter_code_inspect at_, inComment_of_pos inside] at onLine
    cases onLine
  · obtain ⟨frame, opened, rfl⟩ := List.mem_map.mp blocks
    have number : (frame.line : Int) = n := begins
    have elsewhere := line_ne_of_mem_stack inside (List.mem_reverse.mp opened)
    exact absurd (Int.ofNat_inj.mp number) elsewhere
  · exact family?_of_mem_comments comments
  · -- Brackets are reported on the first line, which begins outside of comments.
    have first : f.range.start.line = 0 := by
      obtain ⟨_, rfl⟩ := Balance.check_eq_some_iff.mp (mem_brackets_inspect_iff.mp brackets).2
      rfl
    obtain rfl : n = 0 := by omega
    exact absurd inside (Int.lt_irrefl 0)

/-- No symbol stands on the line. -/
theorem line_ne_of_mem_outline (at_ : (lines text)[n]? = some line)
    (inside : 0 < depthBefore (lines text) n) {s : Symbol} (mem : s ∈ outline text) :
    s.line ≠ n := by
  obtain ⟨front, back, whole, taken, length, _⟩ := exists_cut at_
  have deep : 0 < depthAfter 0 front := taken ▸ inside
  rw [outline, whole, outlineFrom_interior deep] at mem
  obtain before | behind := List.mem_append.mp mem
  · obtain ⟨i, _, d, here, _, rfl⟩ := exists_toSymbol_of_mem_outlineFrom before
    have less := (List.getElem?_eq_some_iff.mp here).1
    show ((0 + i : Nat) : Int) ≠ n
    omega
  · obtain ⟨i, _, d, _, _, rfl⟩ := exists_toSymbol_of_mem_outlineFrom behind
    show ((0 + front.length + 1 + i : Nat) : Int) ≠ n
    omega

/-- No edit touches the line. -/
theorem line_ne_of_mem_formatEdits (at_ : (lines text)[n]? = some line)
    (inside : 0 < depthBefore (lines text) n) {width : Nat} {e : Edit}
    (mem : e ∈ formatEdits width text) : e.range.start.line ≠ n := by
  obtain ⟨front, back, whole, taken, length, _⟩ := exists_cut at_
  have deep : 0 < (Layout.after {} front).depth := by
    rw [depth_after]
    exact taken ▸ inside
  rw [formatEdits, whole, edits_interior width deep] at mem
  obtain before | behind := List.mem_append.mp mem
  · obtain ⟨i, _, here, range⟩ := exists_of_mem_edits before
    have less := (List.getElem?_eq_some_iff.mp here).1
    rw [range]
    show ((0 + i : Nat) : Int) ≠ n
    omega
  · obtain ⟨i, _, _, range⟩ := exists_of_mem_edits behind
    rw [range]
    show ((0 + front.length + 1 + i : Nat) : Int) ≠ n
    omega

/-- Text inside a block comment cannot matter.  A line that begins inside a comment has no symbol,
no edit, and no diagnostic other than one about the nesting of comments.  Any text with as many
markers of each kind can stand in its place: the outline and the edits stay the same, and so do the
diagnostics, if neither brackets nor the nesting of comments are looked at. -/
theorem comment_interior_has_no_influence (at_ : (lines text)[n]? = some line)
    (inside : 0 < depthBefore (lines text) n) :
    (∀ s ∈ outline text, s.line ≠ n) ∧
    (∀ width, ∀ e ∈ formatEdits width text, e.range.start.line ≠ n) ∧
    (∀ config, ∀ d ∈ validate config text, d.range.start.line = n →
      Family.commentNesting.Covers d) ∧
    ∀ other, '\n' ∉ other → '\r' ∉ other → SameMarkers other line →
      lines (withLine text n other) = (lines text).set n other ∧
      lineBreaks (withLine text n other) = lineBreaks text ∧
      outline (withLine text n other) = outline text ∧
      (∀ width, formatEdits width (withLine text n other) = formatEdits width text) ∧
      ∀ config : Config, config.checkBrackets = false → config.reportCommentNesting = false →
        validate config (withLine text n other) = validate config text := by
  refine ⟨fun s => line_ne_of_mem_outline at_ inside,
    fun width e => line_ne_of_mem_formatEdits at_ inside,
    fun config d mem => covers_of_line_eq at_ inside mem, fun other feed carriage same => ?_⟩
  obtain ⟨cut, breaks⟩ := lines_withLine text n feed carriage
  obtain ⟨front, back, whole, taken, _, set⟩ := exists_cut at_
  have deep : 0 < depthAfter 0 front := taken ▸ inside
  refine ⟨cut, breaks, ?outline, fun width => ?edits, fun config unbalanced silent => ?validate⟩
  case outline =>
    rw [outline, outline, cut, set, whole, outlineFrom_interior deep, outlineFrom_interior deep,
      same.scanComments_eq]
  case edits =>
    have deep : 0 < (Layout.after {} front).depth := by
      rw [depth_after]
      exact deep
    rw [formatEdits, formatEdits, cut, set, whole, edits_interior width deep,
      edits_interior width deep, same.scanComments_eq]
  case validate =>
    have run : Progress.run config 0 {} ((lines text).set n other) =
        Progress.run config 0 {} (lines text) := by
      rw [set, whole]
      exact run_interior deep same silent
    have blocks : unclosedBlocks ((lines text).set n other)
        (Progress.run config 0 {} (lines text)).1.stack =
          unclosedBlocks (lines text) (Progress.run config 0 {} (lines text)).1.stack :=
      unclosedBlocks_set (fun frame => line_ne_of_mem_stack inside) other
    simp only [validate, inspect, cut, run, blocks, unbalanced, silent, Bool.false_eq_true,
      if_false]

/-- An opening, an `end` and an open literal take the place of a definition in the comment. -/
theorem comment_interior_has_no_influence_on_method :
    let text := "fun f\n#[ old\nclass b\n]#\nx = 1\nend".toList
    let off : Config := { checkBrackets := false, reportCommentNesting := false }
    outline (withLine text 2 "end do ('".toList) = outline text ∧
      validate off (withLine text 2 "end do ('".toList) = validate off text := by
  intro text off
  have at_ : (lines text)[2]? = some "class b".toList := by decide +kernel
  obtain ⟨_, _, _, replaced⟩ := comment_interior_has_no_influence at_ (by decide +kernel)
  obtain ⟨_, _, symbols, _, diagnostics⟩ :=
    replaced "end do ('".toList (by decide) (by decide) (by decide)
  exact ⟨symbols, diagnostics off rfl rfl⟩

end Document

end Dragonstone
