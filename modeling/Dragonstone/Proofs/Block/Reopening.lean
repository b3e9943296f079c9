/-
# Lines that end a block and open another

A line that begins with `end` may go on with a `do` or an anonymous function.  The two counts of
blocks take such a line differently.  The formatter takes the level back for the `end` and raises it
again for what the line opens.  The checker looks for an opener first and, where it finds one, does
not look for the `end`: it opens a block on top of the one that should have ended.

So a line that begins with `end` closes a block for the formatter always, and for the checker
exactly if it opens nothing.  The two fall apart by one block on every other such line, and the
blocks that are never closed are reported at the end of the document.
-/

import Dragonstone.Proofs.Indentation.Level

namespace Dragonstone

open Block Vocabulary

/-! ### One line that begins with `end` -/

namespace Block

section

variable {masked : Line} (terminator : isTerminator masked = true)

include terminator

theorem word_of_isTerminator : word (skipBlanks masked) = endKeyword :=
  eq_of_beq terminator

theorem branch?_of_isTerminator : branch? masked = none := by
  rw [branch?, word_of_isTerminator terminator]
  rfl

/-- No modifier and no keyword that opens a block stands where the `end` stands. -/
theorem leadingOpener?_of_isTerminator : leadingOpener? masked = none := by
  have hword := word_of_isTerminator terminator
  have hfront : afterModifiers (skipBlanks masked) = skipBlanks masked := by
    rw [afterModifiers]
    split
    · rw [hword]
      rfl
    · rfl
  rw [leadingOpener?, hfront, hword]
  rfl

/-- Behind an `end` only an anonymous function or a `do` can open a block. -/
theorem opener?_eq_none_iff_of_isTerminator :
    opener? masked = none ↔
      closesInline masked = true ∨
        (anonymousFunction? masked = none ∧ hasWord doKeyword masked = false) := by
  rw [opener?, leadingOpener?_of_isTerminator terminator]
  cases closesInline masked <;> cases anonymousFunction? masked <;>
    cases hasWord doKeyword masked <;> simp

/-- What the line opens is all that the checker sees; if it opens nothing, the `end` closes. -/
theorem ofLine_of_isTerminator :
    Form.ofLine masked = ((opener? masked).map Form.opening).getD .closing := by
  rw [Form.ofLine, branch?_of_isTerminator terminator]
  cases opener? masked with
  | none => simp [terminator]
  | some keyword => rfl

/-- The formatter takes a level back for every line that begins with `end`. -/
theorem ownLevel_of_isTerminator (level : Nat) : ownLevel masked level = level - 1 := by
  rw [ownLevel, terminator, Bool.or_true, if_pos rfl]

theorem nextLevel_of_isTerminator (own : Nat) :
    nextLevel masked own = if (opener? masked).isSome then own + 1 else own := by
  rw [nextLevel, branch?_of_isTerminator terminator]
  rfl

end

/-- A line that begins with `end` stands one level further out for the formatter, whatever else is
on it.  For the checker it closes the innermost block exactly if it opens nothing, that is, if it
also ends with `end` or has neither an anonymous function nor a `do`; otherwise the innermost block
stays open under the one that the line opens.  These are also exactly the lines after which the two
have as many blocks as each other. -/
theorem terminator_closes_block_iff {masked : Line} (terminator : isTerminator masked = true)
    (n : Nat) (frame : Frame) (outer : List Frame) :
    (∀ level, ownLevel masked level = level - 1) ∧
      (∀ keyword, opener? masked = some keyword →
        feed n (frame :: outer) (Form.ofLine masked) = (⟨keyword, n⟩ :: frame :: outer, none)) ∧
      (opener? masked = none → feed n (frame :: outer) (Form.ofLine masked) = (outer, none)) ∧
      (¬ frame :: outer <:+ (feed n (frame :: outer) (Form.ofLine masked)).1 ↔
        closesInline masked = true ∨
          (anonymousFunction? masked = none ∧ hasWord doKeyword masked = false)) ∧
      ((feed n (frame :: outer) (Form.ofLine masked)).1.length =
          nextLevel masked (ownLevel masked (frame :: outer).length) ↔
        closesInline masked = true ∨
          (anonymousFunction? masked = none ∧ hasWord doKeyword masked = false)) := by
  rw [← opener?_eq_none_iff_of_isTerminator terminator, ofLine_of_isTerminator terminator,
    nextLevel_of_isTerminator terminator, ownLevel_of_isTerminator terminator]
  refine ⟨ownLevel_of_isTerminator terminator, ?_⟩
  cases opener? masked with
  | none =>
      have gone : ¬ frame :: outer <:+ outer := fun h => absurd h.length_le (by simp)
      simp [feed, gone]
  | some keyword => simp [feed]

/-- The formatter takes the `if` back before the `do`; the checker leaves it open under the `do`. -/
theorem terminator_closes_block_of_chained_call :
    ownLevel "end.map do |x|".toList 1 = 0 ∧
      feed 1 [⟨"if".toList, 0⟩] (Form.ofLine "end.map do |x|".toList) =
        ([⟨"do".toList, 1⟩, ⟨"if".toList, 0⟩], none) := by
  have terminator : isTerminator "end.map do |x|".toList = true := by decide
  obtain ⟨dedents, opens, _⟩ := terminator_closes_block_iff terminator 1 ⟨"if".toList, 0⟩ []
  exact ⟨dedents 1, opens "do".toList (by decide +kernel)⟩

/-- Not every line that begins with `end` closes the innermost block. -/
theorem terminator_leaves_block_open :
    ¬ ∀ (n : Nat) (frame : Frame) (outer : List Frame) (line : Line),
      isTerminator (mask line) = true →
        ¬ frame :: outer <:+ (feed n (frame :: outer) (Form.ofLine (mask line))).1 := by
  intro closes
  exact closes 1 ⟨"if".toList, 0⟩ [] "end.map do |x|".toList (by decide) (by decide +kernel)

end Block

/-! ### Whole documents -/

/-- The number of lines of code that begin with `end` and open a block. -/
def reopenings (ls : List Line) : Nat :=
  ls.countP fun line => !isSkipped line && !decide (EndsApart (mask line))

/-- Every branch and every `end` among the lines finds a level that it can take back. -/
def Layout.IsGrounded (l : Layout) : List Line → Prop
  | [] => True
  | line :: rest =>
    (isSkipped line = false →
        ((branch? (mask line)).isSome || isTerminator (mask line)) = true → 0 < l.level) ∧
      (l.next line).IsGrounded rest

/-- A stack that is higher than the level by some blocks stays so, as long as every branch and
terminator finds a level. -/
theorem length_feed_eq_levelAfter_add (n : Nat) {stack : List Frame} {level more : Nat}
    {masked : Line} (eq : stack.length = level + more)
    (grounded : ((branch? masked).isSome || isTerminator masked) = true → 0 < level) :
    (feed n stack (Form.ofLine masked)).1.length =
      (Form.ofLine masked).levelAfter level + more := by
  -- A level that can be taken back stands for a block on the stack.
  have block (hlevel : 0 < level) : ∃ frame outer, stack = frame :: outer :=
    List.exists_cons_of_length_pos (by omega)
  unfold Form.ofLine
  cases hbranch : branch? masked with
  | some keyword =>
      have hlevel : 0 < level := grounded (by rw [hbranch]; rfl)
      obtain ⟨frame, outer, rfl⟩ := block hlevel
      rw [List.length_cons] at eq
      cases closesInline masked <;> simp [feed, Form.levelAfter] <;> omega
  | none =>
      cases opener? masked with
      | some keyword =>
          simp only [feed, Form.levelAfter, List.length_cons]
          omega
      | none =>
          cases hend : isTerminator masked with
          | false => simpa [feed, Form.levelAfter] using eq
          | true =>
              have hlevel : 0 < level := grounded (by rw [hend, Bool.or_true])
              obtain ⟨frame, outer, rfl⟩ := block hlevel
              rw [List.length_cons] at eq
              simp only [feed, Form.levelAfter, if_pos]
              omega

/-- One line of code: a line that begins with `end` and opens a block leaves the stack higher by
one than the level, any other line keeps the difference. -/
theorem length_feed_eq_nextLevel_add (n : Nat) {stack : List Frame} {level more : Nat}
    {masked : Line} (eq : stack.length = level + more)
    (grounded : ((branch? masked).isSome || isTerminator masked) = true → 0 < level) :
    (feed n stack (Form.ofLine masked)).1.length =
      nextLevel masked (ownLevel masked level) + (more + if EndsApart masked then 0 else 1) := by
  by_cases apart : EndsApart masked
  · rw [nextLevel_ownLevel apart, if_pos apart, Nat.add_zero]
    exact length_feed_eq_levelAfter_add n eq grounded
  · obtain ⟨terminator, opens⟩ := not_not.mp apart
    obtain ⟨keyword, hopener⟩ := Option.isSome_iff_exists.mp opens
    have hlevel : 0 < level := grounded (by rw [terminator, Bool.or_true])
    have hfeed : (feed n stack (Form.ofLine masked)).1.length = stack.length + 1 := by
      rw [ofLine_of_isTerminator terminator, hopener]
      rfl
    rw [hfeed, nextLevel_of_isTerminator terminator, ownLevel_of_isTerminator terminator,
      if_pos opens, if_neg apart, eq]
    omega

/-- A run over lines without comment markers: the stack grows beyond the level by one block for
every line that begins with `end` and opens a block. -/
theorem SideBySide.length_stack_eq_add {config : Config} {n more : Nat} {l : Layout} {p : Progress}
    (side : SideBySide l p) {ls : List Line} (unmarked : ∀ line ∈ ls, IsUnmarked line)
    (grounded : l.IsGrounded ls) (eq : p.stack.length = l.level + more) :
    (p.run config n ls).1.stack.length = (l.after ls).level + (more + reopenings ls) := by
  induction ls generalizing n more l p with
  | nil => exact eq
  | cons line rest ih =>
      obtain ⟨here, later⟩ := grounded
      obtain ⟨hside, hstep⟩ := side.step_of_isUnmarked config n (unmarked line List.mem_cons_self)
      have hrest : ∀ other ∈ rest, IsUnmarked other := fun other member =>
        unmarked other (List.mem_cons_of_mem line member)
      have hcount : reopenings (line :: rest) =
          reopenings rest + if !isSkipped line && !decide (EndsApart (mask line)) then 1 else 0 :=
        List.countP_cons
      have hlast (gained : Nat)
          (hheight : (p.step config n line).1.stack.length =
            (l.next line).level + (more + gained)) :
          (p.run config n (line :: rest)).1.stack.length =
            (l.after (line :: rest)).level + (more + gained + reopenings rest) :=
        ih hside hrest later hheight
      rcases hstep with ⟨hskip, hlevel, hstack⟩ | ⟨hskip, hlevel, hstack, _⟩
      · rw [hcount, hskip]
        exact hlast 0 (by rw [hlevel, hstack]; exact eq)
      · have hheight := length_feed_eq_nextLevel_add n eq (here hskip)
        rw [← hlevel, ← hstack] at hheight
        rw [hlast _ hheight, hcount, hskip]
        by_cases apart : EndsApart (mask line) <;> simp [apart]
        omega

/-- In a document without comment markers in which every branch and terminator finds a level, as
many blocks are reported as not closed as there are levels at the end, and one more for every line
that begins with `end` and opens a block. -/
theorem length_blocks_eq_level_add_reopenings (config : Config) {text : Text}
    (unmarked : ∀ line ∈ lines text, IsUnmarked line)
    (grounded : Layout.IsGrounded {} (lines text)) :
    (inspect config text).blocks.length =
      (Layout.after {} (lines text)).level + reopenings (lines text) := by
  have side : SideBySide {} {} := ⟨rfl, rfl⟩
  have hstack : (Progress.run config 0 {} (lines text)).1.stack.length =
      (Layout.after {} (lines text)).level + (0 + reopenings (lines text)) :=
    side.length_stack_eq_add unmarked grounded rfl
  have hblocks : (inspect config text).blocks.length =
      (Progress.run config 0 {} (lines text)).1.stack.length := by
    simp [inspect, unclosedBlocks]
  rw [hblocks, hstack, Nat.zero_add]

/-- A chain of calls that is in order, but leaves one block open. -/
example : (inspect {} "if a\nend.map do |x|\nend".toList).blocks.length = 1 := by decide +kernel

end Dragonstone
