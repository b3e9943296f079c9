/-
# The order of diagnostics

Diagnostics come in four groups: those of single lines of code, blocks left open, the nesting of
comments, and brackets.  Within each group they stand in the order of their lines.  On one line of
code an open literal comes first, then a name, then a branch or terminator without a block, and of
each there is at most one; in the other groups no two stand on the same line.

That no two blocks that are left open, and no two strays, share a line is not visible in the pass;
it follows from what the pass remembers.  Nor is it visible in the checks of names that a line
breaches at most one convention; it follows from the word in front of the line.
-/

import Dragonstone.Proofs.Naming.Coverage
import Dragonstone.Proofs.Validation.Remembered

namespace Dragonstone

open Block

/-- The place of a problem among those that are found in the code of one line.  The problems of
other groups come behind. -/
def Problem.turn : Problem → Nat
  | .unclosedLiteral _ => 0
  | .lowercaseType _ | .capitalizedCallable _ | .mixedCaseConstant => 1
  | .unexpected _ => 2
  | _ => 3

/-- The finding begins on an earlier line than the other one, or on the same line and has an earlier
turn. -/
def Finding.Precedes (f g : Finding) : Prop :=
  f.range.start.line < g.range.start.line ∨
    f.range.start.line = g.range.start.line ∧ f.problem.turn < g.problem.turn

/-! ### Lines of code -/

namespace Naming

variable {n : Nat} {line : Line} {inEnum : Bool} {f : Finding}

/-- A finding on a name is one of its line, and names come second there. -/
theorem turn_of_mem_check (found : f ∈ check n line inEnum) :
    f.range.start.line = n ∧ f.problem.turn = 1 := by
  obtain ⟨start, stop, range, _⟩ := coversIdentifier_of_mem_check found
  refine ⟨by rw [range]; rfl, ?_⟩
  obtain ⟨keyword, type⟩ | ⟨keyword, callable⟩ | constant := problem_of_mem_namingCheck found
  · rw [type, Problem.turn]
  · rw [callable, Problem.turn]
  · rw [constant, Problem.turn]

end Naming

section Code

variable {config : Config} {n : Nat} {line : Line} {stack : List Frame}

theorem turn_of_mem_checkCode {f : Finding} (found : f ∈ (checkCode config n line stack).1) :
    f.range.start.line = n ∧ f.problem.turn < 3 := by
  obtain ⟨_, _, rfl⟩ | ⟨_, name⟩ | ⟨_, _, rfl⟩ := mem_checkCode_iff.mp found
  · exact ⟨rfl, by simp [onLine, Problem.turn]⟩
  · obtain ⟨here, turn⟩ := Naming.turn_of_mem_check name
    exact ⟨here, by omega⟩
  · exact ⟨rfl, by simp [onLine, Problem.turn]⟩

/-- The findings of one line of code take their turns. -/
theorem pairwise_checkCode (config : Config) (n : Nat) (line : Line) (stack : List Frame) :
    (checkCode config n line stack).1.Pairwise Finding.Precedes := by
  have names : ∃ found? : Option Finding, (if config.checkNaming
      then Naming.check n (mask line) (inEnum stack) else []) = found?.toList := by
    split
    · exact Naming.exists_check_eq_toList n (mask line) (inEnum stack)
    · exact ⟨none, rfl⟩
  obtain ⟨name?, names⟩ := names
  have turn : ∀ f ∈ name?.toList, f.range.start.line = n ∧ f.problem.turn = 1 := by
    rw [← names]
    intro f found
    split at found
    · exact Naming.turn_of_mem_check found
    · cases found
  simp only [checkCode, names]
  refine List.pairwise_append.mpr ⟨List.pairwise_append.mpr ⟨pairwise_toList _, pairwise_toList _,
    ?literal_name⟩, pairwise_toList _, ?structure_last⟩
  case literal_name =>
    intro f literal g name
    obtain ⟨quote, _, rfl⟩ := Option.map_eq_some_iff.mp (Option.mem_toList.mp literal)
    obtain ⟨here, second⟩ := turn g name
    exact .inr ⟨here.symm, Nat.lt_of_lt_of_eq Nat.zero_lt_one second.symm⟩
  case structure_last =>
    intro f front g orphan
    obtain ⟨keyword, _, rfl⟩ := Option.map_eq_some_iff.mp (Option.mem_toList.mp orphan)
    obtain literal | name := List.mem_append.mp front
    · obtain ⟨quote, _, rfl⟩ := Option.map_eq_some_iff.mp (Option.mem_toList.mp literal)
      exact .inr ⟨rfl, by simp [onLine, Problem.turn]⟩
    · obtain ⟨here, second⟩ := turn f name
      exact .inr ⟨here, Nat.lt_of_le_of_lt (Nat.le_of_eq second) Nat.one_lt_two⟩

/-- A run over lines: what is found in code stands in the order of the lines, and what is found on
one of them takes its turn. -/
theorem pairwise_code_run (config : Config) (n : Nat) (p : Progress) (ls : List Line) :
    (p.run config n ls).2.code.Pairwise Finding.Precedes := by
  induction ls generalizing n p with
  | nil => exact List.Pairwise.nil
  | cons line rest ih =>
      simp only [Progress.run, LineFindings.append, code_step]
      refine List.pairwise_append.mpr ⟨?_, ih (n + 1) _, ?_⟩
      · split
        · exact List.Pairwise.nil
        · exact pairwise_checkCode config n line p.stack
      · intro f here g later
        obtain ⟨i, other, stack, _, below⟩ := exists_mem_checkCode_of_mem_run later
        split at here
        · cases here
        · refine .inl ?_
          rw [(turn_of_mem_checkCode here).1, (turn_of_mem_checkCode below).1]
          omega

end Code

/-! ### The whole list -/

/-- Blocks that are left open are reported where they were opened, the outermost first. -/
theorem unclosedBlocks_places (ls : List Line) (stack : List Frame) :
    (unclosedBlocks ls stack).map (fun f => (f.problem, f.range.start.line)) =
      stack.reverse.map fun frame => (Problem.unclosedBlock frame.keyword, (frame.line : Int)) := by
  rw [unclosedBlocks, List.map_map]
  rfl

theorem pairwise_unclosedBlocks {n : Nat} {stack : List Frame} (opened : OpenedBefore n stack)
    (ls : List Line) : (unclosedBlocks ls stack).Pairwise Finding.Above := by
  have inner : stack.Pairwise fun f g => f.line > g.line :=
    List.pairwise_map.mp (List.pairwise_cons.mp opened).2
  rw [unclosedBlocks, List.pairwise_map, List.pairwise_reverse]
  exact inner.imp fun outside => Int.ofNat_lt.mpr outside

/-- A comment that is left open is reported once, where it began, and all strays stand above. -/
theorem pairwise_strays {n : Nat} {strays : List Finding} {p : Progress}
    (remembers : p.Remembers n strays) (ls : List Line) :
    (strays ++ (unclosedComment? ls p).toList).Pairwise Finding.Above := by
  refine List.pairwise_append.mpr ⟨remembers.ordered, pairwise_toList _, ?_⟩
  intro f stray g unclosed
  obtain ⟨deep, rfl⟩ := unclosedComment?_eq_some_iff.mp (Option.mem_toList.mp unclosed)
  obtain ⟨k, start, _, behind⟩ := remembers.comment deep
  rw [start]
  exact behind f stray

/-- The list of diagnostics is made of four groups.  First come those of lines of code, line by line
and in turns.  Then come the blocks that are left open, in the order in which they were opened.
Then come closing markers that close nothing, from top to bottom, and last, below all of them, the
comment that is left open.  The bracket count, if it is reported, ends the list. -/
theorem diagnostics_are_in_order (config : Config) (text : Text) :
    ∃ (code blocks strays : List Finding) (unclosed? brackets? : Option Finding),
      validate config text = (code ++ blocks ++ (strays ++ unclosed?.toList) ++
        brackets?.toList).map (Finding.toDiagnostic config.source) ∧
      ((∀ f ∈ code, f.problem.turn < 3) ∧ code.Pairwise Finding.Precedes) ∧
      (blocks.map (fun f => (f.problem, f.range.start.line)) =
          (Progress.run config 0 {} (lines text)).1.stack.reverse.map
            (fun frame => (Problem.unclosedBlock frame.keyword, (frame.line : Int))) ∧
        blocks.Pairwise Finding.Above) ∧
      ((∀ f ∈ strays, f.problem = .strayCommentClose) ∧
        (∀ f ∈ unclosed?, f.problem = .unclosedComment) ∧
        (strays ++ unclosed?.toList).Pairwise Finding.Above) ∧
      ∀ f ∈ brackets?, ∃ paren square brace,
        f.problem = .mismatchedBrackets paren square brace := by
  have remembers := remembers_lines config (lines text)
  refine ⟨_, _, _, _, _, rfl, ⟨?kinds, pairwise_code_run config 0 {} (lines text)⟩,
    ⟨unclosedBlocks_places _ _, pairwise_unclosedBlocks remembers.blocks _⟩,
    ⟨fun f => problem_of_mem_comments, ?unclosed, ?strays⟩, ?brackets⟩
  case kinds =>
    intro f found
    obtain ⟨_, _, _, _, here⟩ := exists_mem_checkCode_of_mem_run found
    exact (turn_of_mem_checkCode here).2
  case unclosed =>
    intro f found
    obtain ⟨_, unclosed⟩ := Option.ite_none_right_eq_some.mp found
    obtain ⟨_, rfl⟩ := unclosedComment?_eq_some_iff.mp unclosed
    rfl
  case strays =>
    split
    · exact pairwise_strays remembers _
    · rw [Option.toList_none, List.append_nil]
      exact remembers.ordered
  case brackets =>
    intro f found
    obtain ⟨_, unbalanced⟩ := Option.ite_none_right_eq_some.mp found
    obtain ⟨_, rfl⟩ := Balance.check_eq_some_iff.mp unbalanced
    exact ⟨_, _, _, rfl⟩

end Dragonstone
