/-
# Block diagnostics and the grammar

Validation looks into the lines of code only: neither comment text nor blank lines nor line
comments.  The parts that these lines play in the nesting of blocks are the block tokens of the
document.  The main statement is that validation has nothing to say about blocks exactly if the
block tokens form a body of the grammar, whatever the options.

The pass carries the depth of comments and the stack of open blocks along.  What the induction over
the lines keeps is that the stack is as high as the grammar's machine says, as long as the pass has
found no branch or terminator without a block.
-/

import Dragonstone.Proofs.Block.Grammar
import Dragonstone.Proofs.Diagnostic.Wording
import Dragonstone.Proofs.Validation.Pass

namespace Dragonstone

open Block

/-- The part that a line plays in the nesting of blocks where block comments are `depth` deep
before it.  Comment text, blank lines and line comments play none. -/
def codeToken? (depth : Int) (line : Line) : Option Token :=
  if (scanComments line depth).inComment || isSkipped line then none
  else some (Token.ofMasked (mask line))

/-- The parts of lines that begin where block comments are `depth` deep. -/
def tokensFrom (depth : Int) : List Line → List Token
  | [] => []
  | line :: rest =>
    (codeToken? depth line).toList ++ tokensFrom (scanComments line depth).depth rest

/-- The parts that the lines of a document play in the nesting of blocks. -/
def blockTokens (text : Text) : List Token :=
  tokensFrom 0 (lines text)

/-! ### Findings on blocks -/

theorem concernsBlocks_of_mem_namingCheck {n : Nat} {line : Line} {inEnum : Bool} {f : Finding}
    (found : f ∈ Naming.check n line inEnum) : f.problem.concernsBlocks = false := by
  rcases problem_of_mem_namingCheck found with ⟨keyword, h⟩ | ⟨keyword, h⟩ | h
  · rw [h]
    rfl
  · rw [h]
    rfl
  · rw [h]
    rfl

/-- Some finding concerns the nesting of blocks. -/
def findsBlocks (found : List Finding) : Bool :=
  found.any fun f => f.problem.concernsBlocks

@[simp] theorem findsBlocks_append (a b : List Finding) :
    findsBlocks (a ++ b) = (findsBlocks a || findsBlocks b) :=
  List.any_append

/-- A line of code gives a finding on blocks exactly if its form finds no open block. -/
theorem findsBlocks_checkCode (config : Config) (n : Nat) (line : Line) (stack : List Frame) :
    findsBlocks (checkCode config n line stack).1 =
      (feed n stack (Form.ofLine (mask line))).2.isSome := by
  rw [Bool.eq_iff_iff, findsBlocks, List.any_eq_true, Option.isSome_iff_exists]
  constructor
  · rintro ⟨f, found, blocks⟩
    obtain ⟨_, _, rfl⟩ | ⟨_, name⟩ | ⟨keyword, orphan, _⟩ := mem_checkCode_iff.mp found
    · cases blocks
    · cases (concernsBlocks_of_mem_namingCheck name).symm.trans blocks
    · exact ⟨keyword, orphan⟩
  · rintro ⟨keyword, orphan⟩
    exact ⟨_, mem_checkCode_iff.mpr (.inr (.inr ⟨keyword, orphan, rfl⟩)), rfl⟩

/-! ### The pass and the height of the stack -/

theorem heightAfter?_append (n : Nat) (s t : List Token) :
    heightAfter? n (s ++ t) = (heightAfter? n s).bind fun n' => heightAfter? n' t := by
  induction s generalizing n with
  | nil => rfl
  | cons token rest ih =>
      simp only [List.cons_append, heightAfter?, Option.bind_assoc, ih]

/-- One line: the machine takes the part of the line exactly if the pass finds nothing wrong with
blocks there, and it then is as high as the stack. -/
theorem heightAfter?_step (config : Config) (n : Nat) (line : Line) (p : Progress) :
    heightAfter? p.stack.length (codeToken? p.depth line).toList =
      if findsBlocks (p.step config n line).2.code then none
      else some (p.step config n line).1.stack.length := by
  rw [codeToken?, code_step, stack_step]
  split
  case isTrue => rfl
  case isFalse =>
      have hheight := height?_token n p.stack (Form.ofLine (mask line))
      rw [token_ofLine, ← findsBlocks_checkCode config] at hheight
      simp only [Option.toList_some, heightAfter?, hheight]
      cases findsBlocks (checkCode config n line p.stack).1 <;> rfl

/-- A run over lines: the machine takes the parts of all lines exactly if the pass finds nothing
wrong with blocks, and it then ends as high as the stack. -/
theorem heightAfter?_run (config : Config) (n : Nat) (p : Progress) (ls : List Line) :
    heightAfter? p.stack.length (tokensFrom p.depth ls) =
      if findsBlocks (p.run config n ls).2.code then none
      else some (p.run config n ls).1.stack.length := by
  induction ls generalizing n p with
  | nil => rfl
  | cons line rest ih =>
      have hlater := ih (n + 1) (p.step config n line).1
      rw [depth_step] at hlater
      rw [tokensFrom, heightAfter?_append, heightAfter?_step config n]
      simp only [Progress.run, LineFindings.append, findsBlocks_append]
      cases findsBlocks (p.step config n line).2.code with
      | true => rfl
      | false => simpa using hlater

/-! ### The groups of a report -/

/-- Every block that is left open gives a finding on blocks. -/
theorem findsBlocks_unclosedBlocks (ls : List Line) (stack : List Frame) :
    findsBlocks (unclosedBlocks ls stack) = !stack.isEmpty := by
  cases stack with
  | nil => rfl
  | cons frame outer => simp [unclosedBlocks, findsBlocks, onLine, Problem.concernsBlocks]

/-- Neither comments nor brackets concern blocks: of a whole report, the findings of lines and the
blocks left open do. -/
theorem findsBlocks_inspect (config : Config) (text : Text) :
    findsBlocks (inspect config text).all =
      (findsBlocks (inspect config text).code || findsBlocks (inspect config text).blocks) := by
  have hcomments : findsBlocks (inspect config text).comments = false := by
    rw [findsBlocks, List.any_eq_false]
    intro f found
    obtain stray | ⟨_, unclosed⟩ := mem_comments_inspect_iff.mp found
    · simp [problem_of_mem_comments stray, Problem.concernsBlocks]
    · obtain ⟨_, rfl⟩ := unclosedComment?_eq_some_iff.mp unclosed
      simp [onLine, Problem.concernsBlocks]
  have hbrackets : findsBlocks (inspect config text).brackets = false := by
    rw [findsBlocks, List.any_eq_false]
    intro f found
    obtain ⟨_, rfl⟩ := Balance.check_eq_some_iff.mp (mem_brackets_inspect_iff.mp found).2
    simp [Problem.concernsBlocks]
  simp only [Report.all, findsBlocks_append, hcomments, hbrackets, Bool.or_false]

/-- Validation says nothing about blocks, neither that a branch or terminator has no open block
nor that a block is not closed, exactly if the parts of the lines of code form a body of the
grammar. -/
theorem validate_silent_on_blocks_iff (config : Config) (text : Text) :
    (∀ d ∈ validate config text, ¬ d.SpeaksOfBlocks) ↔ Derives .body (blockTokens text) := by
  have hrun := heightAfter?_run config 0 {} (lines text)
  calc (∀ d ∈ validate config text, ¬ d.SpeaksOfBlocks)
      ↔ findsBlocks (inspect config text).all = false := by
        simp [validate, findsBlocks, List.any_eq_false, speaksOfBlocks_toDiagnostic]
    _ ↔ findsBlocks (inspect config text).code = false ∧
          ((Progress.run config 0 {} (lines text)).1.stack = []) := by
        have hblocks : findsBlocks (inspect config text).blocks =
            !(Progress.run config 0 {} (lines text)).1.stack.isEmpty :=
          findsBlocks_unclosedBlocks _ _
        rw [findsBlocks_inspect, hblocks]
        simp
    _ ↔ heightAfter? 0 (blockTokens text) = some 0 := by
        have hcode : (inspect config text).code =
            (Progress.run config 0 {} (lines text)).2.code := rfl
        rw [blockTokens, show heightAfter? 0 (tokensFrom 0 (lines text)) = _ from hrun, hcode]
        cases findsBlocks (Progress.run config 0 {} (lines text)).2.code <;> simp
    _ ↔ Derives .body (blockTokens text) := (derives_body_iff_heightAfter? _).symm

end Dragonstone
