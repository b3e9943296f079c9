/-
# What one pass does and finds

Two questions come up wherever validation is studied: what one line does to what the pass carries
along, and what can be found there.  Both are answered here.  Every line counts for the depth of
comments; only a line that is looked into counts for the stack of open blocks, and only there is
something found in code.  As for the findings, each comes from one check, and for each check it is
stated when it finds something and what this is.
-/

import Dragonstone.Proofs.Definition.Front
import Dragonstone.Validation

namespace Dragonstone

open Block

variable {config : Config} {n : Nat} {line : Line} {f : Finding}

/-! ### What each check can find -/

/-- The checks of names find nothing but breaches of the three conventions. -/
theorem problem_of_mem_namingCheck {inEnum : Bool} (found : f ∈ Naming.check n line inEnum) :
    (∃ keyword, f.problem = .lowercaseType keyword) ∨
      (∃ keyword, f.problem = .capitalizedCallable keyword) ∨ f.problem = .mixedCaseConstant := by
  obtain type | callable | constant := Naming.mem_check_iff.mp found
  · obtain ⟨keyword, _, _, _, _, _, rfl⟩ := Naming.typeName?_eq_some_iff.mp type
    exact .inl ⟨keyword, rfl⟩
  · obtain ⟨keyword, _, _, _, _, _, _, rfl⟩ := Naming.callableName?_eq_some_iff.mp callable
    exact .inr (.inl ⟨keyword, rfl⟩)
  · obtain ⟨_, _, _, rfl⟩ := Naming.constantName?_eq_some_iff.mp constant
    exact .inr (.inr rfl)

/-- A line of code has a literal that is left open, a name in breach of a convention, or a branch or
terminator without a block. -/
theorem mem_checkCode_iff {stack : List Frame} :
    f ∈ (checkCode config n line stack).1 ↔
      (∃ quote, unclosedQuote? line = some quote ∧
          onLine n line (.unclosedLiteral quote) = f) ∨
        (config.checkNaming = true ∧ f ∈ Naming.check n (mask line) (inEnum stack)) ∨
        ∃ keyword, (feed n stack (Form.ofLine (mask line))).2 = some keyword ∧
          onLine n line (.unexpected keyword) = f := by
  simp only [checkCode, List.mem_append, Option.mem_toList, Option.map_eq_some_iff,
    List.mem_ite_nil_right, or_assoc]

/-- A stray that is reported is the first one of its line, the count of which goes below zero. -/
theorem strayClose?_eq_some_iff {depth : Int} :
    strayClose? n line depth = some f ↔
      (scanComments line depth).overClosed ≠ 0 ∧
        ∃ column, (strayCloses line depth).head? = some column ∧
          f = ⟨Range.inLine n column (column + 2), .strayCommentClose⟩ := by
  unfold strayClose?
  split
  case isTrue count => simp [count]
  case isFalse below =>
      simp only [Option.map_eq_some_iff, ne_eq, below, not_false_iff, true_and, @eq_comm _ f]

theorem unclosedComment?_eq_some_iff {ls : List Line} {p : Progress} :
    unclosedComment? ls p = some f ↔
      0 < p.depth ∧
        onLine (p.commentStart.getD 0) (ls[p.commentStart.getD 0]?.getD []) .unclosedComment =
          f := by
  simp only [unclosedComment?, Option.ite_none_right_eq_some, Option.some.injEq]

theorem Balance.check_eq_some_iff {text : Text} {ls : List Line} :
    Balance.check text ls = some f ↔
      (hasBenignIdiom (strip text) = false ∧ Surplus.of (strip text) ≠ ⟨0, 0, 0⟩) ∧
        ⟨Range.wholeLine 0 (ls.headD []).length,
          .mismatchedBrackets (Surplus.of (strip text)).paren (Surplus.of (strip text)).square
            (Surplus.of (strip text)).brace⟩ = f := by
  simp only [Balance.check, Option.ite_none_left_eq_some, Option.some.injEq, Bool.or_eq_true,
    decide_eq_true_eq, not_or, Bool.not_eq_true, ne_eq]

/-! ### What one line does to the pass -/

/-- One line, component by component. -/
theorem step_eq (config : Config) (n : Nat) (line : Line) (p : Progress) :
    p.step config n line =
      let scan := scanComments line p.depth
      let passes := scan.inComment || isSkipped line
      let looked := checkCode config n line p.stack
      (⟨scan.depth, if p.depth ≤ 0 && 0 < scan.depth then some n else p.commentStart,
          if passes then p.stack else looked.2⟩,
        ⟨if passes then [] else looked.1,
          if config.reportCommentNesting then (strayClose? n line p.depth).toList else []⟩) := by
  simp only [Progress.step]
  split <;> rfl

theorem depth_step (config : Config) (n : Nat) (line : Line) (p : Progress) :
    (p.step config n line).1.depth = (scanComments line p.depth).depth := by
  rw [step_eq]

theorem commentStart_step (config : Config) (n : Nat) (line : Line) (p : Progress) :
    (p.step config n line).1.commentStart =
      if p.depth ≤ 0 && 0 < (scanComments line p.depth).depth then some n else p.commentStart := by
  rw [step_eq]

theorem stack_step (config : Config) (n : Nat) (line : Line) (p : Progress) :
    (p.step config n line).1.stack =
      if (scanComments line p.depth).inComment || isSkipped line then p.stack
      else (checkCode config n line p.stack).2 := by
  rw [step_eq]

/-- What the pass finds on a line, comments apart, it finds in code. -/
theorem code_step (config : Config) (n : Nat) (line : Line) (p : Progress) :
    (p.step config n line).2.code =
      if (scanComments line p.depth).inComment || isSkipped line then []
      else (checkCode config n line p.stack).1 := by
  rw [step_eq]

/-- What a line says about comments is its first stray closing marker, if this is reported. -/
theorem comments_step (config : Config) (n : Nat) (line : Line) (p : Progress) :
    (p.step config n line).2.comments =
      if config.reportCommentNesting then (strayClose? n line p.depth).toList else [] := by
  rw [step_eq]

/-! ### What a run finds -/

/-- What a run finds in one of its groups, one of its steps finds on the step's line. -/
theorem exists_step_of_mem_run (part : LineFindings → List Finding) (empty : part {} = [])
    (append : ∀ a b, part (a.append b) = part a ++ part b) {config : Config} {n : Nat}
    {p : Progress} {ls : List Line} {f : Finding} (found : f ∈ part (p.run config n ls).2) :
    ∃ i line q, ls[i]? = some line ∧ f ∈ part (Progress.step config (n + i) line q).2 := by
  induction ls generalizing n p with
  | nil =>
      rw [Progress.run, empty] at found
      cases found
  | cons line rest ih =>
      rw [Progress.run, append] at found
      obtain here | later := List.mem_append.mp found
      · exact ⟨0, line, p, rfl, here⟩
      · obtain ⟨i, other, q, at_, found⟩ := ih later
        rw [Nat.add_assoc, Nat.add_comm 1 i] at found
        exact ⟨i + 1, other, q, at_, found⟩

/-- What a run finds in code, it finds in the code of one of its lines. -/
theorem exists_mem_checkCode_of_mem_run {config : Config} {n : Nat} {p : Progress}
    {ls : List Line} {f : Finding} (found : f ∈ (p.run config n ls).2.code) :
    ∃ i line stack, ls[i]? = some line ∧ f ∈ (checkCode config (n + i) line stack).1 := by
  obtain ⟨i, line, q, at_, here⟩ :=
    exists_step_of_mem_run LineFindings.code rfl (fun _ _ => rfl) found
  rw [code_step] at here
  split at here
  · cases here
  · exact ⟨i, line, q.stack, at_, here⟩

/-- A stray that a run finds is the one of one of its lines. -/
theorem exists_strayClose?_of_mem_run {config : Config} {n : Nat} {p : Progress} {ls : List Line}
    {f : Finding} (found : f ∈ (p.run config n ls).2.comments) :
    ∃ i line depth, ls[i]? = some line ∧ strayClose? (n + i) line depth = some f := by
  obtain ⟨i, line, q, at_, here⟩ :=
    exists_step_of_mem_run LineFindings.comments rfl (fun _ _ => rfl) found
  rw [comments_step] at here
  split at here
  · exact ⟨i, line, q.depth, at_, Option.mem_toList.mp here⟩
  · cases here

/-- The pass finds nothing about comments but those that are closed without being open. -/
theorem problem_of_mem_comments {config : Config} {n : Nat} {p : Progress} {ls : List Line}
    {f : Finding} (found : f ∈ (p.run config n ls).2.comments) :
    f.problem = .strayCommentClose := by
  obtain ⟨i, line, depth, _, stray⟩ := exists_strayClose?_of_mem_run found
  obtain ⟨_, column, _, rfl⟩ := strayClose?_eq_some_iff.mp stray
  rfl

/-! ### What a document has -/

/-- About comments, a document has closing markers that close nothing, and the comment that is open
at the end. -/
theorem mem_comments_inspect_iff {text : Text} :
    f ∈ (inspect config text).comments ↔
      f ∈ (Progress.run config 0 {} (lines text)).2.comments ∨
        config.reportCommentNesting = true ∧
          unclosedComment? (lines text) (Progress.run config 0 {} (lines text)).1 = some f := by
  simp only [inspect, List.mem_append, Option.mem_toList, Option.ite_none_right_eq_some]

theorem mem_brackets_inspect_iff {text : Text} :
    f ∈ (inspect config text).brackets ↔
      config.checkBrackets = true ∧ Balance.check text (lines text) = some f := by
  simp only [inspect, Option.mem_toList, Option.ite_none_right_eq_some]

end Dragonstone
