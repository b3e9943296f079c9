/-
# Lines that are not looked into

The validation passes over blank lines and line comments.  It need not: looked into, such a line has
no finding and leaves the open blocks as they are.  Two notions of blank meet here.  What is passed
over is decided by every space of Unicode, while the recognisers know the six blanks of the grammar
only, and any other space hides what stands behind it from most of them.  On these lines nothing is
left to be hidden, since the mask of such a line shows nothing but spaces.

To say that passing over lines is all that makes the difference, the pass is given here with the
lines to pass over as a parameter.
-/

import Dragonstone.Proofs.Definition.Front
import Dragonstone.Proofs.LeadingSpace.Line
import Dragonstone.Proofs.Role.Projection
import Dragonstone.Validation
import Mathlib.Data.List.DropRight

namespace Dragonstone

open Block

/-! ### The lines -/

/-- The line without the spaces in front and behind. -/
def trimmed (line : Line) : Line :=
  (ink line).rdropWhile isSpace

/-- A line is passed over if nothing is left of it without the spaces around it, or a line
comment. -/
theorem isSkipped_iff_trimmed (line : Line) :
    isSkipped line = true ↔ trimmed line = [] ∨ (trimmed line).head? = some '#' := by
  cases found : ink line with
  | nil =>
      have none : firstInk line = none := congrArg List.head? found
      have empty : trimmed line = [] := by rw [trimmed, found]; rfl
      rw [isSkipped, none]
      exact iff_of_true rfl (.inl empty)
  | cons c rest =>
      have first : firstInk line = some c := congrArg List.head? found
      have nonempty : trimmed line ≠ [] := by
        rw [trimmed, found, ne_eq, List.rdropWhile_eq_nil_iff]
        intro spaces
        have space := spaces c List.mem_cons_self
        rw [isSpace_of_ink_eq_cons found] at space
        cases space
      have head : (trimmed line).head? = some c := by
        obtain ⟨behind, whole⟩ : trimmed line <+: c :: rest := by
          rw [trimmed, found]
          exact List.rdropWhile_prefix isSpace _
        rw [← List.head?_append_of_ne_nil _ nonempty, whole]
        rfl
      rw [isSkipped, first, head]
      simp [nonempty]

/-- Lines that are passed over are empty or line comments, with spaces in front. -/
theorem isSkipped_induction {motive : Line → Prop} (nil : motive [])
    (comment : ∀ rest, motive ('#' :: rest))
    (space : ∀ c rest, isSpace c = true → motive rest → motive (c :: rest)) {line : Line}
    (skipped : isSkipped line = true) : motive line := by
  induction line with
  | nil => exact nil
  | cons c rest ih =>
      by_cases blank : isSpace c = true
      · rw [isSkipped_cons blank] at skipped
        exact space c rest blank (ih skipped)
      · obtain rfl : c = '#' := by
          simpa [isSkipped, firstInk, List.dropWhile_cons_of_neg blank] using skipped
        exact comment rest

/-! ### Texts of spaces -/

section Spaces

variable {s : Text} (spaces : ∀ c ∈ s, isSpace c = true)

include spaces

theorem word_of_spaces : word (skipBlanks s) = [] := by
  rw [word, List.takeWhile_eq_nil_iff]
  intro inside letter
  have member : (skipBlanks s)[0] ∈ s := (List.dropWhile_suffix isBlank).subset (List.getElem_mem _)
  exact Bool.false_ne_true ((isWordChar_of_isSpace (spaces _ member)).symm.trans letter)

theorem words_of_spaces : words s = [] := by
  have none := apply_append_of_forall (fun _ rest space => words_cons space rest) spaces []
  rwa [List.append_nil] at none

/-- A line of spaces does nothing to the open blocks. -/
theorem ofLine_of_spaces : Form.ofLine s = .plain := by
  have front := word_of_spaces spaces
  have noWords := words_of_spaces spaces
  have modifiers : afterModifiers (skipBlanks s) = skipBlanks s := by
    rw [afterModifiers, front]
    split <;> rfl
  have branch : branch? s = none := by rw [branch?, front]; rfl
  have opener : opener? s = none := by
    rw [opener?, closesInline, noWords, leadingOpener?, modifiers, front, anonymousFunction?,
      noWords, hasWord, noWords]
    rfl
  have terminator : isTerminator s = false := by rw [isTerminator, front]; rfl
  rw [Form.ofLine, branch, opener, terminator]
  rfl

/-- Nor does it have a name that could breach a convention. -/
theorem namingCheck_of_spaces (n : Nat) (inEnum : Bool) : Naming.check n s inEnum = [] := by
  have front := word_of_spaces spaces
  have type : Naming.typeName? n s = none := Naming.typeName?_eq_none (by rw [front]; decide)
  have callable : Naming.callableName? n s = none :=
    Naming.callableName?_eq_none (by rw [front]; decide)
  have constant : Naming.constantName? n s inEnum = none :=
    Naming.constantName?_eq_none (by rw [front]; rfl)
  rw [Naming.check, type, callable, constant]
  rfl

end Spaces

/-! ### What is found on the lines -/

section Skipped

variable {line : Line} (skipped : isSkipped line = true)

include skipped

/-- The mask of a line that is not looked into shows nothing but spaces. -/
theorem isSpace_of_mem_mask : ∀ c ∈ mask line, isSpace c = true := by
  refine isSkipped_induction (motive := fun line => ∀ c ∈ mask line, isSpace c = true) ?nil ?comment
    ?space skipped
  case nil => exact fun c mem => absurd mem List.not_mem_nil
  case comment =>
    intro rest c mem
    rw [mask_comment] at mem
    obtain rfl := List.eq_of_mem_replicate mem
    rfl
  case space =>
    intro c rest space later
    rw [mask_cons space]
    exact List.forall_mem_cons.mpr ⟨space, later⟩

theorem unclosedQuote?_of_isSkipped : unclosedQuote? line = none :=
  isSkipped_induction (motive := fun line => unclosedQuote? line = none) rfl (fun _ => rfl)
    (fun _ rest space later => (unclosedQuote?_cons space rest).trans later) skipped

/-- Looked into, the line has no finding and leaves the stack as it is. -/
theorem checkCode_of_isSkipped (config : Config) (n : Nat) (stack : List Frame) :
    checkCode config n line stack = ([], stack) := by
  have spaces := isSpace_of_mem_mask skipped
  rw [checkCode, unclosedQuote?_of_isSkipped skipped, namingCheck_of_spaces spaces,
    ofLine_of_spaces spaces, ite_self]
  rfl

end Skipped

/-! ### The pass with other lines to pass over -/

/-- One line of the pass, which does not look into comment text and some other lines. -/
def Progress.stepSkipping (skips : Line → Bool) (config : Config) (n : Nat) (line : Line)
    (p : Progress) : Progress × LineFindings :=
  let scan := scanComments line p.depth
  let start := if p.depth ≤ 0 && 0 < scan.depth then some n else p.commentStart
  let strays := if config.reportCommentNesting then (strayClose? n line p.depth).toList else []
  if scan.inComment || skips line then (⟨scan.depth, start, p.stack⟩, ⟨[], strays⟩)
  else
    let (found, stack) := checkCode config n line p.stack
    (⟨scan.depth, start, stack⟩, ⟨found, strays⟩)

/-- The pass over the lines from line `n` on. -/
def Progress.runSkipping (skips : Line → Bool) (config : Config) (n : Nat) (p : Progress) :
    List Line → Progress × LineFindings
  | [] => (p, {})
  | line :: rest =>
    let (p', here) := p.stepSkipping skips config n line
    let (last, later) := p'.runSkipping skips config (n + 1) rest
    (last, here.append later)

/-- Everything that is found in a document when some lines are passed over. -/
def inspectSkipping (skips : Line → Bool) (config : Config) (text : Text) : Report :=
  let ls := lines text
  let (last, found) := Progress.runSkipping skips config 0 {} ls
  let open? := if config.reportCommentNesting then unclosedComment? ls last else none
  let brackets := if config.checkBrackets then Balance.check text ls else none
  { code := found.code
    blocks := unclosedBlocks ls last.stack
    comments := found.comments ++ open?.toList
    brackets := brackets.toList }

def validateSkipping (skips : Line → Bool) (config : Config) (text : Text) : List Diagnostic :=
  (inspectSkipping skips config text).all.map (Finding.toDiagnostic config.source)

section Pass

variable {skips : Line → Bool} (only : ∀ line, skips line = true → isSkipped line = true)
  (config : Config)

include only

/-- One line: whether a blank line or a line comment is looked into makes no difference. -/
theorem stepSkipping_eq (n : Nat) (line : Line) (p : Progress) :
    p.stepSkipping skips config n line = p.step config n line := by
  cases skipped : isSkipped line with
  | false =>
      have looked : skips line = false :=
        Bool.eq_false_iff.mpr fun skip => Bool.false_ne_true (skipped.symm.trans (only line skip))
      rw [Progress.stepSkipping, looked, Progress.step, skipped]
  | true =>
      simp only [Progress.stepSkipping, Progress.step, checkCode_of_isSkipped skipped, skipped,
        Bool.or_true, ite_self]

/-- A run over lines: nor does it make one for all of them. -/
theorem runSkipping_eq (n : Nat) (p : Progress) (ls : List Line) :
    p.runSkipping skips config n ls = p.run config n ls := by
  induction ls generalizing n p with
  | nil => rfl
  | cons line rest ih =>
      simp only [Progress.runSkipping, Progress.run, stepSkipping_eq only, ih]

theorem validateSkipping_eq (text : Text) :
    validateSkipping skips config text = validate config text := by
  simp only [validateSkipping, inspectSkipping, runSkipping_eq only, validate, inspect]

end Pass

/-- Passing over blank lines and line comments only saves time.  The validation passes over the
lines that are `isSkipped`, and the list of diagnostics is the same if it passes over none of them.
A line that is empty or a line comment, spaces apart, leaves no quote open; its mask has no name to
report, within enumerations and outside; and whatever blocks are open in front of it, it leaves them
as they are and has no finding on them. -/
theorem skipping_is_only_fast_path (config : Config) (text : Text) :
    validateSkipping isSkipped config text = validate config text ∧
      validateSkipping (fun _ => false) config text = validate config text ∧
      ∀ line : Line, trimmed line = [] ∨ (trimmed line).head? = some '#' →
        unclosedQuote? line = none ∧
        (∀ n inEnum, Naming.check n (mask line) inEnum = []) ∧
        ∀ n stack, feed n stack (Form.ofLine (mask line)) = (stack, none) := by
  refine ⟨validateSkipping_eq (fun _ => id) config text,
    validateSkipping_eq (fun _ never => absurd never Bool.false_ne_true) config text,
    fun line idle => ?_⟩
  have skipped := (isSkipped_iff_trimmed line).mpr idle
  have spaces := isSpace_of_mem_mask skipped
  refine ⟨unclosedQuote?_of_isSkipped skipped, namingCheck_of_spaces spaces, fun n stack => ?_⟩
  rw [ofLine_of_spaces spaces, feed]

/-- Behind a space that is no blank of the grammar, the comment is passed over all the same. -/
theorem skipping_is_only_fast_path_behind_foreign_space :
    let line := "\u00a0# end \"Foo = 1".toList
    unclosedQuote? line = none ∧ Naming.check 0 (mask line) false = [] ∧
      feed 0 [⟨"if".toList, 0⟩] (Form.ofLine (mask line)) = ([⟨"if".toList, 0⟩], none) := by
  intro line
  obtain ⟨_, _, idle⟩ := skipping_is_only_fast_path {} line
  obtain ⟨closed, names, blocks⟩ := idle line (by decide +kernel)
  exact ⟨closed, names 0 false, blocks 0 _⟩

end Dragonstone
