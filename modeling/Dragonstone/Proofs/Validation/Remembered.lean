/-
# The lines that the pass remembers

A block is reported when the document ends, on the line that opened it, and so is a comment that is
still open.  By then the pass has only line numbers left.  They are in order: an open block was
opened behind those around it, and all of them on lines that the pass has seen.  An open comment
began behind all strays, because a line with a stray leaves no comment open.

What one line keeps is stated in front of the next one; from the first line on it then holds to the
end of the document.
-/

import Dragonstone.Proofs.Validation.CommentNesting

namespace Dragonstone

open Block

/-- The finding begins on an earlier line than the other one. -/
def Finding.Above (f g : Finding) : Prop :=
  f.range.start.line < g.range.start.line

instance (f g : Finding) : Decidable (f.Above g) :=
  inferInstanceAs (Decidable (_ < _))

/-! ### Open blocks -/

namespace Block

/-- The blocks were opened on lines in front of line `n`, an inner one behind those around it. -/
def OpenedBefore (n : Nat) (stack : List Frame) : Prop :=
  (n :: stack.map Frame.line).Pairwise (· > ·)

namespace OpenedBefore

variable {n : Nat} {stack outer : List Frame} {frame : Frame}

theorem line_lt (opened : OpenedBefore n stack) : ∀ frame ∈ stack, frame.line < n := by
  intro frame mem
  exact (List.pairwise_cons.mp opened).1 frame.line (List.mem_map_of_mem mem)

/-- A block that is opened on a line is the innermost one behind the line. -/
theorem push (opened : OpenedBefore n stack) (keyword : Text) :
    OpenedBefore (n + 1) (⟨keyword, n⟩ :: stack) := by
  refine List.pairwise_cons.mpr ⟨?_, opened⟩
  intro line mem
  obtain here | earlier := List.mem_cons.mp mem
  · exact Nat.lt_succ_of_le (Nat.le_of_eq here)
  · exact Nat.lt_succ_of_lt ((List.pairwise_cons.mp opened).1 line earlier)

theorem next (opened : OpenedBefore n stack) : OpenedBefore (n + 1) stack :=
  (opened.push []).sublist (List.cons_sublist_cons.mpr (List.sublist_cons_self n _))

theorem pop (opened : OpenedBefore n (frame :: outer)) : OpenedBefore n outer :=
  opened.sublist (List.cons_sublist_cons.mpr (List.sublist_cons_self frame.line _))

/-- Whatever form the line has, what it leaves open was opened on it or in front of it. -/
theorem feed (opened : OpenedBefore n stack) (form : Form) :
    OpenedBefore (n + 1) (feed n stack form).1 := by
  cases form with
  | plain => exact opened.next
  | opening keyword => exact opened.push keyword
  | closing =>
      cases stack with
      | nil => exact opened.next
      | cons frame outer => exact opened.pop.next
  | branch keyword closed =>
      cases stack with
      | nil => exact opened.next
      | cons frame outer =>
          cases closed with
          | false => exact opened.pop.push keyword
          | true => exact opened.pop.next

end OpenedBefore

end Block

/-! ### Strays -/

theorem pairwise_toList {α : Type} {R : α → α → Prop} (a? : Option α) : a?.toList.Pairwise R := by
  cases a? with
  | none => exact List.Pairwise.nil
  | some a => exact List.pairwise_singleton R a

theorem mem_comments_step {config : Config} {n : Nat} {line : Line} {p : Progress} {f : Finding}
    (found : f ∈ (p.step config n line).2.comments) : strayClose? n line p.depth = some f := by
  rw [comments_step] at found
  split at found
  · exact Option.mem_toList.mp found
  · cases found

/-- Where the count goes below zero, no comment is left open. -/
theorem depth_eq_zero_of_overClosed {line : Line} {depth : Int}
    (below : (scanComments line depth).overClosed ≠ 0) : (scanComments line depth).depth = 0 := by
  simp only [scanComments] at below ⊢
  omega

/-! ### The pass -/

/-- What the pass remembers in front of line `n`, having found some strays. -/
structure Progress.Remembers (n : Nat) (strays : List Finding) (p : Progress) : Prop where
  blocks : OpenedBefore n p.stack
  /-- Strays stand on lines that the pass has seen, each on one of its own. -/
  earlier : ∀ f ∈ strays, f.range.start.line < n
  ordered : strays.Pairwise Finding.Above
  /-- An open comment began on a line that the pass has seen, behind all strays. -/
  comment : 0 < p.depth →
    ∃ k, p.commentStart = some k ∧ k < n ∧ ∀ f ∈ strays, f.range.start.line < k

namespace Progress.Remembers

variable {n : Nat} {strays : List Finding} {p : Progress}

/-- One line: the blocks that it leaves open, its stray and the comment that it opens stand behind
all that was remembered. -/
theorem step (h : p.Remembers n strays) (config : Config) (line : Line) :
    (p.step config n line).1.Remembers (n + 1) (strays ++ (p.step config n line).2.comments) := by
  have here : ∀ f ∈ (p.step config n line).2.comments,
      f.range.start.line = n ∧ (scanComments line p.depth).depth = 0 := by
    intro f found
    obtain ⟨below, column, _, rfl⟩ := strayClose?_eq_some_iff.mp (mem_comments_step found)
    exact ⟨rfl, depth_eq_zero_of_overClosed below⟩
  refine ⟨?blocks, ?earlier, ?ordered, ?comment⟩
  case blocks =>
    rw [stack_step]
    split
    · exact h.blocks.next
    · exact h.blocks.feed (Form.ofLine (mask line))
  case earlier =>
    intro f mem
    obtain before | now := List.mem_append.mp mem
    · have line := h.earlier f before
      omega
    · have line := (here f now).1
      omega
  case ordered =>
    refine List.pairwise_append.mpr ⟨h.ordered, ?_, ?_⟩
    · rw [comments_step]
      split
      · exact pairwise_toList _
      · exact List.Pairwise.nil
    · intro f before g now
      rw [Finding.Above, (here g now).1]
      exact h.earlier f before
  case comment =>
    rw [depth_step, commentStart_step]
    intro deep
    have none : (p.step config n line).2.comments = [] := by
      rw [List.eq_nil_iff_forall_not_mem]
      intro f found
      have flat := (here f found).2
      omega
    rw [none, List.append_nil]
    by_cases opens : p.depth ≤ 0
    · exact ⟨n, by simp [opens, deep], Nat.lt_succ_self n, h.earlier⟩
    · obtain ⟨k, start, seen, behind⟩ := h.comment (Int.not_le.mp opens)
      exact ⟨k, by simpa [opens] using start, Nat.lt_succ_of_lt seen, behind⟩

/-- A run over lines: the same holds behind all of them. -/
theorem run (h : p.Remembers n strays) (config : Config) (ls : List Line) :
    (p.run config n ls).1.Remembers (n + ls.length) (strays ++ (p.run config n ls).2.comments) := by
  induction ls generalizing n strays p with
  | nil =>
      rw [Progress.run, List.append_nil]
      exact h
  | cons line rest ih =>
      have later := ih (h.step config line)
      rw [List.append_assoc] at later
      rw [List.length_cons, Nat.add_comm rest.length, ← Nat.add_assoc]
      exact later

end Progress.Remembers

/-- At the end of a document the pass remembers lines of the document. -/
theorem remembers_lines (config : Config) (ls : List Line) :
    (Progress.run config 0 {} ls).1.Remembers ls.length
      (Progress.run config 0 {} ls).2.comments := by
  have start : Progress.Remembers 0 [] {} :=
    ⟨List.pairwise_singleton _ 0, by simp, List.Pairwise.nil, fun deep => absurd deep (by decide)⟩
  have last := start.run config ls
  rw [Nat.zero_add, List.nil_append] at last
  exact last

end Dragonstone
