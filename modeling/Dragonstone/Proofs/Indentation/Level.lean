/-
# Levels and open blocks

The nesting of blocks is counted twice: formatting counts levels, and validation keeps a stack of
open blocks.  The two counts are independent of each other and can disagree.  Where comments have no
markers and no line is both a terminator and an opener, they are related as follows.  The level is
never below the height of the stack.  The only lines that make a difference are branches without a
block: such a branch raises the level and leaves the stack empty.  Terminators without a block make
none, because both counts stop at zero.

So as long as validation has found no branch without a block, a line of code is indented by as many
levels as there are open blocks around it, where a branch or terminator stands outside of the block
that it continues or ends.
-/

import Dragonstone.Proofs.Comment.Nesting
import Dragonstone.Proofs.Indentation.Applied
import Dragonstone.Proofs.Validation.Nesting

namespace Dragonstone

open Block Vocabulary

/-! ### One line of code -/

/-- What a form does to the level. -/
def Block.Form.levelAfter : Form → Nat → Nat
  | .branch _ closed, level => if closed then level - 1 else level - 1 + 1
  | .opening _, level => level + 1
  | .closing, level => level - 1
  | .plain, level => level

/-- No masked line of code is a terminator and an opener at once. -/
def EndsApart (masked : Line) : Prop :=
  ¬ (isTerminator masked = true ∧ (opener? masked).isSome = true)

instance (masked : Line) : Decidable (EndsApart masked) :=
  inferInstanceAs (Decidable (¬ (_ ∧ _)))

/-- The level after a masked line is what its form makes of the level before it. -/
theorem nextLevel_ownLevel {masked : Line} (apart : EndsApart masked) (level : Nat) :
    nextLevel masked (ownLevel masked level) = (Form.ofLine masked).levelAfter level := by
  unfold nextLevel ownLevel Form.ofLine
  cases hbranch : branch? masked with
  | some keyword => rfl
  | none =>
      cases hopener : opener? masked with
      | some keyword =>
          have hend : isTerminator masked = false := by
            rw [Bool.eq_false_iff]
            exact fun hend => apart ⟨hend, by rw [hopener]; rfl⟩
          simp [hend, Form.levelAfter]
      | none => cases hend : isTerminator masked <;> simp [Form.levelAfter]

/-- The level stays at least as high as the stack. -/
theorem length_feed_le_levelAfter (n : Nat) {stack : List Frame} {level : Nat} (form : Form)
    (le : stack.length ≤ level) : (feed n stack form).1.length ≤ form.levelAfter level := by
  cases form with
  | branch keyword closed =>
      cases stack with
      | nil => exact Nat.zero_le _
      | cons frame outer =>
          have houter : outer.length ≤ level - 1 := Nat.le_sub_one_of_lt le
          cases closed with
          | true => exact houter
          | false => exact Nat.succ_le_succ houter
  | opening keyword => exact Nat.succ_le_succ le
  | closing =>
      cases stack with
      | nil => exact Nat.zero_le _
      | cons frame outer => exact Nat.le_sub_one_of_lt le
  | plain => exact le

/-- A level that is as high as the stack stays so, unless a branch finds no block. -/
theorem levelAfter_length (n : Nat) (stack : List Frame) {form : Form}
    (block : ∀ keyword closed, form = .branch keyword closed → stack ≠ []) :
    form.levelAfter stack.length = (feed n stack form).1.length := by
  cases form with
  | branch keyword closed =>
      cases stack with
      | nil => exact absurd rfl (block keyword closed rfl)
      | cons frame outer => cases closed <;> rfl
  | opening keyword => rfl
  | closing => cases stack <;> rfl
  | plain => rfl

/-! ### Branches without a block -/

/-- The finding is a branch without a block. -/
def Finding.IsOrphanBranch (f : Finding) : Prop :=
  ∃ keyword ∈ branchKeywords, f.problem = .unexpected keyword

theorem mem_branchKeywords_of_ofLine {masked : Line} {keyword : Text} {closed : Bool}
    (form : Form.ofLine masked = .branch keyword closed) : keyword ∈ branchKeywords := by
  unfold Form.ofLine at form
  cases hbranch : branch? masked with
  | some found =>
      simp only [hbranch, Form.branch.injEq] at form
      obtain ⟨hword, rfl⟩ : word (skipBlanks masked) ∈ branchKeywords ∧
          word (skipBlanks masked) = found := by
        simpa [branch?] using hbranch
      exact form.1 ▸ hword
  | none =>
      simp only [hbranch] at form
      cases hopener : opener? masked with
      | some found => simp [hopener] at form
      | none => cases hend : isTerminator masked <;> simp [hopener, hend] at form

/-- Where no branch without a block is found on a line of code, a branch has a block. -/
theorem stack_ne_nil_of_branch {config : Config} {n : Nat} {line : Line} {stack : List Frame}
    (quiet : ∀ f ∈ (checkCode config n line stack).1, ¬ f.IsOrphanBranch) {keyword : Text}
    {closed : Bool} (form : Form.ofLine (mask line) = .branch keyword closed) : stack ≠ [] := by
  rintro rfl
  apply quiet (onLine n line (.unexpected keyword))
  · exact mem_checkCode_iff.mpr (.inr (.inr ⟨keyword, by rw [form, feed], rfl⟩))
  · exact ⟨keyword, mem_branchKeywords_of_ofLine form, rfl⟩

/-- An orphaned branch is reported on its line. -/
theorem line_of_mem_checkCode {config : Config} {n : Nat} {line : Line} {stack : List Frame}
    {f : Finding} (found : f ∈ (checkCode config n line stack).1) (orphan : f.IsOrphanBranch) :
    f.range.start.line = n := by
  obtain ⟨keyword, _, hproblem⟩ := orphan
  obtain ⟨_, _, rfl⟩ | ⟨_, name⟩ | ⟨_, _, rfl⟩ := mem_checkCode_iff.mp found
  · cases hproblem
  · obtain ⟨_, type⟩ | ⟨_, callable⟩ | constant := problem_of_mem_namingCheck name
    · cases type.symm.trans hproblem
    · cases callable.symm.trans hproblem
    · cases constant.symm.trans hproblem
  · rfl

/-! ### The two passes side by side -/

/-- What is asked of a line for the two counts to be comparable. -/
structure IsComparable (line : Line) : Prop where
  unmarked : IsUnmarked line
  apart : isSkipped line = false → EndsApart (mask line)

/-- The passes stand side by side in front of a line: both outside comments. -/
structure SideBySide (l : Layout) (p : Progress) : Prop where
  layout : l.depth = 0
  progress : p.depth = 0

variable {config : Config} {n : Nat} {line : Line} {l : Layout} {p : Progress}

/-- Either both passes skip a line without comment markers, or both look at its masked form. -/
theorem SideBySide.step_of_isUnmarked (config : Config) (n : Nat) (side : SideBySide l p)
    (unmarked : IsUnmarked line) :
    SideBySide (l.next line) (p.step config n line).1 ∧
      ((isSkipped line = true ∧ (l.next line).level = l.level ∧
          (p.step config n line).1.stack = p.stack) ∨
        (isSkipped line = false ∧
          (l.next line).level = nextLevel (mask line) (ownLevel (mask line) l.level) ∧
          (p.step config n line).1.stack = (feed n p.stack (Form.ofLine (mask line))).1 ∧
          (p.step config n line).2.code = (checkCode config n line p.stack).1)) := by
  have hscan := scanComments_of_isUnmarked unmarked
  refine ⟨⟨?_, ?_⟩, ?_⟩
  · rw [depth_next, side.layout, hscan]
  · rw [depth_step, side.progress, hscan]
  · cases hskip : isSkipped line with
    | true =>
        left
        simp [Layout.next, keepsLayout, stack_step, hskip]
    | false =>
        right
        refine ⟨rfl, ?_, ?_, ?_⟩
        · simp [Layout.next, keepsLayout, side.layout, hskip]
        · simp [stack_step, side.progress, hscan, hskip, checkCode]
        · simp [code_step, side.progress, hscan, hskip]

/-- Either both passes skip a comparable line, or both do what its form says. -/
theorem SideBySide.step (config : Config) (n : Nat) (side : SideBySide l p)
    (comparable : IsComparable line) :
    SideBySide (l.next line) (p.step config n line).1 ∧
      ((isSkipped line = true ∧ (l.next line).level = l.level ∧
          (p.step config n line).1.stack = p.stack) ∨
        ((l.next line).level = (Form.ofLine (mask line)).levelAfter l.level ∧
          (p.step config n line).1.stack = (feed n p.stack (Form.ofLine (mask line))).1 ∧
          (p.step config n line).2.code = (checkCode config n line p.stack).1)) := by
  obtain ⟨hside, hstep⟩ := side.step_of_isUnmarked config n comparable.unmarked
  refine ⟨hside, hstep.imp id ?_⟩
  rintro ⟨hskip, hlevel, hstack, hcode⟩
  exact ⟨hlevel.trans (nextLevel_ownLevel (comparable.apart hskip) l.level), hstack, hcode⟩

/-- A run over lines: the level does not go below the height of the stack. -/
theorem SideBySide.length_stack_le_level (config : Config) (n : Nat) (side : SideBySide l p)
    {ls : List Line} (comparable : ∀ line ∈ ls, IsComparable line) (le : p.stack.length ≤ l.level) :
    SideBySide (l.after ls) (p.run config n ls).1 ∧
      (p.run config n ls).1.stack.length ≤ (l.after ls).level := by
  induction ls generalizing n l p with
  | nil => exact ⟨side, le⟩
  | cons line rest ih =>
      obtain ⟨hside, hstep⟩ := side.step config n (comparable line List.mem_cons_self)
      have hrest : ∀ other ∈ rest, IsComparable other := fun other member =>
        comparable other (List.mem_cons_of_mem line member)
      apply ih (n + 1) hside hrest
      rcases hstep with ⟨_, hlevel, hstack⟩ | ⟨hlevel, hstack, _⟩
      · rw [hlevel, hstack]
        exact le
      · rw [hlevel, hstack]
        exact length_feed_le_levelAfter n _ le

/-- A run over lines without a finding about a branch: a level that is as high as the stack stays
so. -/
theorem SideBySide.level_eq_length_stack (side : SideBySide l p) {ls : List Line}
    (comparable : ∀ line ∈ ls, IsComparable line)
    (quiet : ∀ f ∈ (p.run config n ls).2.code, ¬ f.IsOrphanBranch)
    (eq : l.level = p.stack.length) : (l.after ls).level = (p.run config n ls).1.stack.length := by
  induction ls generalizing n l p with
  | nil => exact eq
  | cons line rest ih =>
      obtain ⟨hside, hstep⟩ := side.step config n (comparable line List.mem_cons_self)
      have hrest : ∀ other ∈ rest, IsComparable other := fun other member =>
        comparable other (List.mem_cons_of_mem line member)
      simp only [Progress.run, LineFindings.append, List.mem_append] at quiet
      apply ih hside hrest (fun f found => quiet f (Or.inr found))
      rcases hstep with ⟨_, hlevel, hstack⟩ | ⟨hlevel, hstack, hcode⟩
      · rw [hlevel, hstack]
        exact eq
      · rw [hlevel, hstack, eq]
        apply levelAfter_length
        intro keyword closed form
        rw [hcode] at quiet
        exact stack_ne_nil_of_branch (fun f found => quiet f (Or.inl found)) form

/-! ### What validation reports up to a line -/

/-- A branch without a block that the pass finds stands on a line that the pass has seen. -/
theorem line_lt_of_mem_run {ls : List Line} {f : Finding}
    (found : f ∈ (p.run config n ls).2.code) (orphan : f.IsOrphanBranch) :
    f.range.start.line < n + ls.length := by
  obtain ⟨i, line, stack, at_, here⟩ := exists_mem_checkCode_of_mem_run found
  have seen := line_of_mem_checkCode here orphan
  have inside := (List.getElem?_eq_some_iff.mp at_).1
  omega

/-- What the pass finds in the first lines it finds in all of them. -/
theorem mem_run_of_mem_run_take {ls : List Line} (i : Nat) {f : Finding}
    (found : f ∈ (p.run config n (ls.take i)).2.code) : f ∈ (p.run config n ls).2.code := by
  induction ls generalizing n p i with
  | nil => simpa using found
  | cons line rest ih =>
      cases i with
      | zero => cases found
      | succ i =>
          simp only [List.take_succ_cons, Progress.run, LineFindings.append,
            List.mem_append] at found ⊢
          exact found.imp id (ih i)

/-- Validation reports no branch without a block in front of line `i`. -/
def NoOrphanBranchBefore (config : Config) (text : Text) (i : Nat) : Prop :=
  ∀ d ∈ validate config text, d.range.start.line < i → ∀ keyword ∈ branchKeywords,
    d.message ≠ unexpectedWording (String.ofList keyword)

instance (config : Config) (text : Text) (i : Nat) :
    Decidable (NoOrphanBranchBefore config text i) :=
  inferInstanceAs (Decidable (∀ d ∈ validate config text, _ → ∀ keyword ∈ branchKeywords, _))

/-- What is not reported in front of a line was not found in front of it. -/
theorem not_isOrphanBranch_of_noOrphanBranchBefore {text : Text} {i : Nat}
    (quiet : NoOrphanBranchBefore config text i) {f : Finding}
    (found : f ∈ (Progress.run config 0 {} ((lines text).take i)).2.code) :
    ¬ f.IsOrphanBranch := by
  intro orphan
  have hline : f.range.start.line < i := by
    have hseen := line_lt_of_mem_run found orphan
    rw [List.length_take] at hseen
    omega
  obtain ⟨keyword, hkeyword, hproblem⟩ := orphan
  have hreported : f.toDiagnostic config.source ∈ validate config text := by
    apply List.mem_map_of_mem
    have hcode : f ∈ (inspect config text).code := mem_run_of_mem_run_take i found
    simp only [Report.all, List.mem_append]
    exact Or.inl (Or.inl (Or.inl hcode))
  apply quiet _ hreported hline keyword hkeyword
  show f.problem.message = _
  rw [hproblem]
  rfl

/-- The level that the formatter has reached in front of line `i`. -/
def levelBefore (text : Text) (i : Nat) : Nat :=
  (Layout.after {} ((lines text).take i)).level

/-- The blocks that validation knows to be open in front of line `i`, the innermost first. -/
def stackBefore (config : Config) (text : Text) (i : Nat) : List Frame :=
  (Progress.run config 0 {} ((lines text).take i)).1.stack

/-- In a text without comment markers in which no line of code is a terminator and an opener at
once, the level in front of any line, and after the last, is at least the number of open blocks.  As
long as validation has reported no branch without a block, the two are equal.  A line of code is
then indented by the number of blocks that are open in front of it, and a branch or terminator by
the number that is left after it has closed the innermost one. -/
theorem level_follows_stack (config : Config) (width : Nat) (text : Text)
    (unmarked : ∀ line ∈ lines text, IsUnmarked line)
    (apart : ∀ line ∈ lines text, isSkipped line = false → EndsApart (mask line)) (i : Nat) :
    (stackBefore config text i).length ≤ levelBefore text i ∧
      (NoOrphanBranchBefore config text i →
        levelBefore text i = (stackBefore config text i).length ∧
        ∃ out, applyEdits text (formatEdits width text) = .ok out ∧
          ∀ line, (lines text)[i]? = some line → isSkipped line = false →
            (((branch? (mask line)).isSome = true ∨ isTerminator (mask line) = true) →
              (lines out)[i]? =
                some (indentation width (stackBefore config text i).tail.length ++ ink line)) ∧
            ((branch? (mask line)).isSome = false ∧ isTerminator (mask line) = false →
              (lines out)[i]? =
                some (indentation width (stackBefore config text i).length ++ ink line))) := by
  have comparable : ∀ line ∈ (lines text).take i, IsComparable line := by
    intro line member
    have hline := List.mem_of_mem_take member
    exact ⟨unmarked line hline, apart line hline⟩
  have side : SideBySide {} {} := ⟨rfl, rfl⟩
  obtain ⟨hside, hle⟩ := side.length_stack_le_level config 0 comparable (Nat.le_refl 0)
  refine ⟨hle, fun quiet => ?_⟩
  have heq : levelBefore text i = (stackBefore config text i).length :=
    side.level_eq_length_stack comparable
      (fun f found => not_isOrphanBranch_of_noOrphanBranchBefore quiet found) rfl
  refine ⟨heq, _, applyEdits_formatEdits width text, fun line hline hcode => ?_⟩
  have hplaced : (lines (weave (Layout.placed width {} (lines text)) (lineBreaks text)))[i]? =
      some (indentation width (ownLevel (mask line) (stackBefore config text i).length) ++
        ink line) := by
    have hkeep : keepsLayout line (Layout.after {} ((lines text).take i)).depth = false := by
      rw [keepsLayout, hside.layout, hcode]
      rfl
    rw [(lines_weave_edit (keepsBreaks_placed width {} (lines text))).1, getElem?_placed, hline,
      Option.map_some, Layout.place, hkeep, ← heq]
    rfl
  rw [hplaced]
  constructor
  · intro hout
    have hown : (branch? (mask line)).isSome || isTerminator (mask line) := by
      rwa [Bool.or_eq_true]
    rw [ownLevel, if_pos hown, List.length_tail]
  · rintro ⟨hbranch, hend⟩
    rw [ownLevel, hbranch, hend]
    rfl

/-- Behind an `end` without a block the two counts still agree, and the branch stands outside of the
block that it continues. -/
theorem level_follows_stack_behind_orphaned_end :
    ∃ out, applyEdits "end\nwhile a\nif b\nelse\nc".toList
        (formatEdits 2 "end\nwhile a\nif b\nelse\nc".toList) = .ok out ∧
      (lines out)[3]? = some "  else".toList := by
  obtain ⟨_, agree⟩ := level_follows_stack {} 2 "end\nwhile a\nif b\nelse\nc".toList
    (by decide +kernel) (by decide +kernel) 3
  obtain ⟨_, out, applied, placed⟩ := agree (by decide +kernel)
  refine ⟨out, applied, ?_⟩
  rw [(placed "else".toList (by decide +kernel) (by decide +kernel)).1 (by decide +kernel)]
  decide +kernel

end Dragonstone
