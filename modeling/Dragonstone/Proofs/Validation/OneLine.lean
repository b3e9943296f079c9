/-
# What is found on one line

The pass looks for literals, names and blocks line by line.  What is found on a given line is what
the check of this line finds, given the blocks that are open in front of it; no other line adds to
it.  Names are looked at nowhere else, so the diagnostics about names on a line are those that the
checks of names give for its mask.
-/

import Dragonstone.Proofs.Indentation.Level
import Dragonstone.Proofs.Validation.Order

namespace Dragonstone

open Block

variable {config : Config} {text : Text} {n : Nat} {line : Line}

/-- The finding begins on line `n`. -/
def Finding.beginsOn (n : Nat) (f : Finding) : Bool :=
  f.range.start.line == n

/-- The diagnostics of a document that begin on line `n` and are worded as those of a family are. -/
def diagnosticsOn (config : Config) (text : Text) (family : Family) (n : Nat) : List Diagnostic :=
  (validate config text).filter fun d => d.range.start.line = n ∧ family.Covers d

/-! ### Findings of code -/

/-- What a line of the pass finds in code begins on this line. -/
theorem line_of_mem_code_step {p : Progress} {f : Finding}
    (found : f ∈ (p.step config n line).2.code) : f.range.start.line = n := by
  rw [code_step] at found
  split at found
  · cases found
  · exact (turn_of_mem_checkCode found).1

/-- What a run finds in code begins on one of its lines. -/
theorem le_line_of_mem_code_run {p : Progress} {ls : List Line} {f : Finding}
    (found : f ∈ (p.run config n ls).2.code) : (n : Int) ≤ f.range.start.line := by
  obtain ⟨i, line, stack, _, here⟩ := exists_mem_checkCode_of_mem_run found
  rw [(turn_of_mem_checkCode here).1]
  omega

/-- Of all that a run finds in code, what begins on one of its lines is what this line finds. -/
theorem filter_code_run {p : Progress} {ls : List Line} {i : Nat} (at_ : ls[i]? = some line) :
    (p.run config n ls).2.code.filter (Finding.beginsOn (n + i)) =
      ((p.run config n (ls.take i)).1.step config (n + i) line).2.code := by
  induction ls generalizing n p i with
  | nil => cases at_
  | cons first rest ih =>
      simp only [Progress.run, LineFindings.append, List.filter_append]
      cases i with
      | zero =>
          obtain rfl : first = line := Option.some.inj at_
          have here : (p.step config n first).2.code.filter (Finding.beginsOn n) =
              (p.step config n first).2.code :=
            List.filter_eq_self.mpr fun f found => beq_iff_eq.mpr (line_of_mem_code_step found)
          have later : ((p.step config n first).1.run config (n + 1) rest).2.code.filter
              (Finding.beginsOn n) = [] := by
            refine List.filter_eq_nil_iff.mpr fun f found same => ?_
            have below := le_line_of_mem_code_run found
            have line : f.range.start.line = n := beq_iff_eq.mp same
            omega
          rw [Nat.add_zero, here, later, List.append_nil]
          rfl
      | succ i =>
          have here : (p.step config n first).2.code.filter (Finding.beginsOn (n + (i + 1))) =
              [] := by
            refine List.filter_eq_nil_iff.mpr fun f found same => ?_
            have line := line_of_mem_code_step found
            have other : f.range.start.line = (n + (i + 1) : Nat) := beq_iff_eq.mp same
            omega
          have later := ih (n := n + 1) (p := (p.step config n first).1) (i := i) at_
          rw [Nat.add_right_comm n 1 i, Nat.add_assoc] at later
          rw [here, later, List.nil_append]
          rfl

/-- Of all findings of code, those on a line are what the check of the line finds, given the blocks
that are open in front of it; in comment text and on blank lines there are none. -/
theorem filter_code_inspect (at_ : (lines text)[n]? = some line) :
    (inspect config text).code.filter (Finding.beginsOn n) =
      if (scanComments line (depthBefore (lines text) n)).inComment || isSkipped line then []
      else (checkCode config n line (stackBefore config text n)).1 := by
  have here : (Progress.run config 0 {} (lines text)).2.code.filter (Finding.beginsOn (0 + n)) =
      ((Progress.run config 0 {} ((lines text).take n)).1.step config (0 + n) line).2.code :=
    filter_code_run at_
  rw [Nat.zero_add] at here
  have depth : (Progress.run config 0 {} ((lines text).take n)).1.depth =
      depthBefore (lines text) n :=
    depth_run config 0 {} _
  have code : (inspect config text).code = (Progress.run config 0 {} (lines text)).2.code := rfl
  rw [code, here, code_step, depth, stackBefore]

/-! ### Findings about names -/

/-- Of what is found on a line of code, what the checks of names find is about names. -/
theorem filter_naming_checkCode (named : config.checkNaming = true) (stack : List Frame) :
    (checkCode config n line stack).1.filter (fun f => f.problem.family? == some .naming) =
      Naming.check n (mask line) (inEnum stack) := by
  have literal : ((unclosedQuote? line).map fun q =>
      onLine n line (.unclosedLiteral q)).toList.filter
        (fun f => f.problem.family? == some .naming) = [] := by
    cases unclosedQuote? line <;> rfl
  have structural (orphan : Option Text) : (orphan.map fun keyword =>
      onLine n line (.unexpected keyword)).toList.filter
        (fun f => f.problem.family? == some .naming) = [] := by
    cases orphan <;> rfl
  have names : (Naming.check n (mask line) (inEnum stack)).filter
      (fun f => f.problem.family? == some .naming) = Naming.check n (mask line) (inEnum stack) :=
    List.filter_eq_self.mpr fun f found => beq_iff_eq.mpr (family?_of_mem_namingCheck found)
  simp only [checkCode, named, if_true, List.filter_append, literal, structural, names,
    List.nil_append, List.append_nil]

/-- Of a whole report, only findings of code are about names. -/
theorem filter_naming_inspect :
    (inspect config text).all.filter (fun f => f.problem.family? == some .naming) =
      (inspect config text).code.filter (fun f => f.problem.family? == some .naming) := by
  have none (found : List Finding) {family? : Option Family} (other : family? ≠ some .naming)
      (one : ∀ f ∈ found, f.problem.family? = family?) :
      found.filter (fun f => f.problem.family? == some .naming) = [] := by
    refine List.filter_eq_nil_iff.mpr fun f mem same => other ?_
    rw [← one f mem]
    exact beq_iff_eq.mp same
  have blocks := none (inspect config text).blocks (by decide) fun f =>
    family?_of_mem_unclosedBlocks
  have comments := none (inspect config text).comments (by decide) fun f => family?_of_mem_comments
  have brackets := none (inspect config text).brackets
    (show some Family.brackets ≠ some .naming by decide) fun f => family?_of_mem_brackets
  simp only [Report.all, List.filter_append, blocks, comments, brackets, List.append_nil]

theorem diagnosticsOn_eq (family : Family) :
    diagnosticsOn config text family n =
      (((inspect config text).all.filter fun f => f.problem.family? == some family).filter
        (Finding.beginsOn n)).map (Finding.toDiagnostic config.source) := by
  rw [diagnosticsOn, validate, List.filter_map, List.filter_filter]
  refine congrArg (List.map _) (List.filter_congr fun f _ => ?_)
  rw [Function.comp_apply, Bool.eq_iff_iff, decide_eq_true_iff, covers_toDiagnostic_iff]
  simp [Finding.beginsOn, Finding.toDiagnostic]

/-- The diagnostics about names on a line are what the checks of names find in its mask, given
whether an enumeration is open in front of it. -/
theorem namingOn_eq (named : config.checkNaming = true) (at_ : (lines text)[n]? = some line) :
    diagnosticsOn config text .naming n =
      (if (scanComments line (depthBefore (lines text) n)).inComment || isSkipped line then []
        else Naming.check n (mask line) (inEnum (stackBefore config text n))).map
        (Finding.toDiagnostic config.source) := by
  rw [diagnosticsOn_eq, filter_naming_inspect, List.filter_comm, filter_code_inspect at_]
  split
  · rfl
  · rw [filter_naming_checkCode named]

/-- Behind the last line there are none. -/
theorem namingOn_eq_nil (behind : (lines text)[n]? = none) :
    diagnosticsOn config text .naming n = [] := by
  rw [diagnosticsOn_eq, filter_naming_inspect, List.map_eq_nil_iff, List.filter_eq_nil_iff]
  intro f found same
  obtain ⟨i, line, stack, at_, here⟩ :=
    exists_mem_checkCode_of_mem_run (List.mem_of_mem_filter found)
  have line : f.range.start.line = n := beq_iff_eq.mp same
  have begins := (turn_of_mem_checkCode here).1
  obtain rfl : n = i := by omega
  rw [behind] at at_
  cases at_

end Dragonstone
