/-
# Comment diagnostics and balanced markers

Validation says nothing about the nesting of comments exactly if the markers of the document are
balanced once each line's openings are read before its closings.  Read in the order of their
columns, the markers may be worse than that: a closing marker without an open comment goes
unreported where an opening one on the same line makes up for it.  The count of the line is then not
below zero, and only where it is does the pass look for strays.

So documents with balanced markers are never reported, and documents that are not reported have
balanced markers unless some line hides a stray in this way.
-/

import Dragonstone.Proofs.Comment.Nesting
import Dragonstone.Proofs.Validation.Families

namespace Dragonstone

open Block

/-! ### What the pass finds about comments -/

/-- A line of which the count goes below zero is reported, and no other. -/
theorem strayClose?_eq_none_iff {depth : Int} (nonneg : 0 ≤ depth) (n : Nat) (line : Line) :
    strayClose? n line depth = none ↔ (scanComments line depth).overClosed = 0 := by
  unfold strayClose?
  split
  case isTrue count => exact iff_of_true rfl count
  case isFalse below =>
      refine iff_of_false ?_ below
      rw [Option.map_eq_none_iff, List.head?_eq_none_iff]
      exact fun none => below (overClosed_eq_zero_of_strayCloses nonneg none)

variable {config : Config}

theorem depth_run (config : Config) (n : Nat) (p : Progress) (ls : List Line) :
    (p.run config n ls).1.depth = depthAfter p.depth ls := by
  induction ls generalizing n p with
  | nil => rfl
  | cons line rest ih =>
      rw [depthAfter_cons, ← depth_step config n line p]
      exact ih (n + 1) (p.step config n line).1

/-- The pass finds no stray in some lines exactly if no line's count goes below zero. -/
theorem comments_run_eq_nil_iff (reported : config.reportCommentNesting = true) (n : Nat)
    {p : Progress} (nonneg : 0 ≤ p.depth) (ls : List Line) :
    (p.run config n ls).2.comments = [] ↔
      EachLine (fun depth line => (scanComments line depth).overClosed = 0) p.depth ls := by
  induction ls generalizing n p with
  | nil => exact iff_of_true rfl trivial
  | cons line rest ih =>
      have here : (p.step config n line).2.comments = [] ↔
          (scanComments line p.depth).overClosed = 0 := by
        rw [comments_step, if_pos reported, Option.toList_eq_nil_iff,
          strayClose?_eq_none_iff nonneg]
      have below := depth_step config n line p
      have later := ih (n + 1) (p := (p.step config n line).1)
        (below ▸ scanComments_depth_nonneg line p.depth)
      rw [below] at later
      simp only [Progress.run, LineFindings.append, List.append_eq_nil_iff, here, later, EachLine]

/-! ### Silence about comments -/

theorem family?_of_mem_checkCode {n : Nat} {line : Line} {stack : List Frame} {f : Finding}
    (found : f ∈ (checkCode config n line stack).1) :
    f.problem.family? = none ∨ f.problem.family? = some .naming := by
  obtain ⟨_, _, rfl⟩ | ⟨_, name⟩ | ⟨_, _, rfl⟩ := mem_checkCode_iff.mp found
  · exact .inl rfl
  · exact .inr (family?_of_mem_namingCheck name)
  · exact .inl rfl

theorem family?_of_mem_comments {text : Text} {f : Finding}
    (found : f ∈ (inspect config text).comments) : f.problem.family? = some .commentNesting := by
  obtain stray | ⟨_, unclosed⟩ := mem_comments_inspect_iff.mp found
  · rw [problem_of_mem_comments stray, Problem.family?]
  · exact family?_of_mem_unclosedComment? unclosed

theorem family?_of_mem_code {text : Text} {f : Finding} (found : f ∈ (inspect config text).code) :
    f.problem.family? = none ∨ f.problem.family? = some .naming := by
  obtain ⟨_, _, _, _, here⟩ := exists_mem_checkCode_of_mem_run found
  exact family?_of_mem_checkCode here

theorem family?_of_mem_brackets {text : Text} {f : Finding}
    (found : f ∈ (inspect config text).brackets) : f.problem.family? = some .brackets := by
  exact family?_of_mem_balanceCheck (mem_brackets_inspect_iff.mp found).2

/-- Of a whole report, one group is about the nesting of comments, and no other finding is. -/
theorem filter_all_eq_filter_comments {pick : Finding → Bool}
    (about : ∀ f, pick f = true → f.problem.family? = some .commentNesting) (text : Text) :
    (inspect config text).all.filter pick = (inspect config text).comments.filter pick := by
  have none {found : List Finding}
      (other : ∀ f ∈ found, f.problem.family? ≠ some .commentNesting) : found.filter pick = [] :=
    List.filter_eq_nil_iff.mpr fun f mem picked => other f mem (about f picked)
  have code : (inspect config text).code.filter pick = [] := none fun f mem => by
    obtain unnamed | naming := family?_of_mem_code mem
    · rw [unnamed]
      exact nofun
    · rw [naming]
      exact nofun
  have blocks : (inspect config text).blocks.filter pick = [] := none fun f mem => by
    rw [family?_of_mem_unclosedBlocks mem]
    exact nofun
  have brackets : (inspect config text).brackets.filter pick = [] := none fun f mem => by
    rw [family?_of_mem_brackets mem]
    exact nofun
  rw [Report.all, List.filter_append, List.filter_append, List.filter_append, code, blocks,
    brackets, List.nil_append, List.nil_append, List.append_nil]

theorem mem_comments_of_family? {text : Text} {f : Finding}
    (found : f ∈ (inspect config text).all) (family : f.problem.family? = some .commentNesting) :
    f ∈ (inspect config text).comments := by
  have picked : f ∈ (inspect config text).all.filter
      fun f => f.problem.family? == some .commentNesting :=
    List.mem_filter.mpr ⟨found, beq_iff_eq.mpr family⟩
  rw [filter_all_eq_filter_comments fun f => beq_iff_eq.mp] at picked
  exact (List.mem_filter.mp picked).1

theorem silent_on_comments_iff (config : Config) (text : Text) :
    (∀ d ∈ validate config text, ¬ Family.commentNesting.Covers d) ↔
      (inspect config text).comments = [] := by
  simp only [validate, List.forall_mem_map, covers_toDiagnostic_iff]
  constructor
  · intro silent
    refine List.eq_nil_iff_forall_not_mem.mpr fun f mem => silent f ?_ (family?_of_mem_comments mem)
    simp only [Report.all, List.mem_append]
    exact .inl (.inr mem)
  · intro none f mem family
    have comment := mem_comments_of_family? mem family
    rw [none] at comment
    cases comment

/-- Where it is reported, nothing is said about the nesting of comments exactly if no line's count
goes below zero and the depth after the last line is zero. -/
theorem comments_inspect_eq_nil_iff (reported : config.reportCommentNesting = true) (text : Text) :
    (inspect config text).comments = [] ↔
      EachLine (fun depth line => (scanComments line depth).overClosed = 0) 0 (lines text) ∧
        depthAfter 0 (lines text) = 0 := by
  have strays := comments_run_eq_nil_iff reported 0 (p := {}) (Int.le_refl 0) (lines text)
  have last : (Progress.run config 0 {} (lines text)).1.depth = depthAfter 0 (lines text) :=
    depth_run config 0 {} (lines text)
  have unclosed : unclosedComment? (lines text) (Progress.run config 0 {} (lines text)).1 = none ↔
      depthAfter 0 (lines text) = 0 := by
    have above := depthAfter_nonneg (Int.le_refl 0) (lines text)
    rw [unclosedComment?, last]
    split
    case isTrue deep => exact iff_of_false (Option.some_ne_none _) (by omega)
    case isFalse flat => exact iff_of_true rfl (by omega)
  simp only [inspect, reported, if_true, List.append_eq_nil_iff, Option.toList_eq_nil_iff, strays,
    unclosed]

/-- Where the nesting of comments is reported, validation is silent about it exactly if the markers
are balanced with the openings of each line in front of its closings.  The markers in their own
order are balanced exactly if, besides, no line hides a closing marker that closes nothing by
opening a comment behind it. -/
theorem validate_silent_on_comments_iff (reported : config.reportCommentNesting = true)
    (text : Text) :
    ((∀ d ∈ validate config text, ¬ Family.commentNesting.Covers d) ↔
        BalancedMarkers ((lines text).flatMap openingsFirst)) ∧
      (BalancedMarkers (commentMarkers text) ↔
        (∀ d ∈ validate config text, ¬ Family.commentNesting.Covers d) ∧
          EachLine (fun depth line => ¬ HidesStray depth line) 0 (lines text)) := by
  have silent : (∀ d ∈ validate config text, ¬ Family.commentNesting.Covers d) ↔
      EachLine (fun depth line => (scanComments line depth).overClosed = 0) 0 (lines text) ∧
        depthAfter 0 (lines text) = 0 :=
    (silent_on_comments_iff config text).trans (comments_inspect_eq_nil_iff reported text)
  constructor
  · rw [silent, balancedMarkers_openingsFirst_iff]
  · rw [silent, balancedMarkers_commentMarkers_iff, eachLine_noStray_iff (Int.le_refl 0),
      and_right_comm]

/-- Markers in disorder on one line are seen, since more comments are closed there than opened. -/
theorem validate_reports_stray_in_front_of_pair :
    (∃ d ∈ validate {} "]# #[ ]#".toList, Family.commentNesting.Covers d) ∧
      ¬ BalancedMarkers (commentMarkers "]# #[ ]#".toList) := by
  have reported : ({} : Config).reportCommentNesting = true := rfl
  have truth := validate_silent_on_comments_iff reported "]# #[ ]#".toList
  have disorder : ¬ BalancedMarkers ((lines "]# #[ ]#".toList).flatMap openingsFirst) := by
    decide +kernel
  rw [← truth.1] at disorder
  exact ⟨by simpa using disorder, fun balanced => disorder (truth.2.mp balanced).1⟩

/-- A closing marker that closes nothing, and an opening one that is never closed, pass unreported
on one line. -/
theorem validate_overlooks_stray_in_front_of_opening :
    (∀ d ∈ validate {} "]# #[".toList, ¬ Family.commentNesting.Covers d) ∧
      ¬ BalancedMarkers (commentMarkers "]# #[".toList) := by
  decide +kernel

end Dragonstone
