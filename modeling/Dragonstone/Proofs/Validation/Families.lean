/-
# Families of checks are independent

Turning families of checks off deletes their diagnostics from the list and does nothing else: all
other diagnostics stay as they are and in their order.  The name of the source goes into every
diagnostic and has no other influence, and the width of the indentation has none at all.

What makes this true is that the pass carries no state for a family.  The depth of comments, the
line of the open comment and the stack of blocks are the same before every line whatever the
options are, and each family finds what it finds from these alone.
-/

import Dragonstone.Proofs.Diagnostic.Family
import Dragonstone.Proofs.Validation.Nesting

namespace Dragonstone

open Block

/-- The finding belongs to none of some families. -/
def Finding.outside (off : List Family) (f : Finding) : Bool :=
  off.all fun family => f.problem.family? != some family

theorem outside_iff (off : List Family) (source : String) (f : Finding) :
    f.outside off = true ↔ ∀ family ∈ off, ¬ family.Covers (f.toDiagnostic source) := by
  simp only [Finding.outside, List.all_eq_true, bne_iff_ne, ne_eq, covers_toDiagnostic_iff]

/-! ### The family of a group -/

/-- Findings of no family stay when families are turned off. -/
theorem filter_outside_of_none {found : List Finding} (off : List Family)
    (none : ∀ f ∈ found, f.problem.family? = none) : found.filter (Finding.outside off) = found := by
  rw [List.filter_eq_self]
  intro f mem
  simp [Finding.outside, none f mem]

/-- Findings of one family go or stay together. -/
theorem filter_outside {found : List Finding} {family : Family} (off : List Family)
    (one : ∀ f ∈ found, f.problem.family? = some family) :
    found.filter (Finding.outside off) = if off.contains family then [] else found := by
  split
  case isTrue gone =>
      rw [List.filter_eq_nil_iff]
      intro f mem
      have given : family ∈ off := List.contains_iff_mem.mp gone
      simpa [Finding.outside, one f mem] using given
  case isFalse kept =>
      rw [List.filter_eq_self]
      intro f mem
      have given : family ∉ off := fun h => kept (List.contains_iff_mem.mpr h)
      simp only [Finding.outside, one f mem, List.all_eq_true, bne_iff_ne, ne_eq, Option.some.injEq]
      rintro other mem rfl
      exact given mem

theorem family?_of_mem_namingCheck {n : Nat} {line : Line} {inEnum : Bool} {f : Finding}
    (found : f ∈ Naming.check n line inEnum) : f.problem.family? = some .naming := by
  rcases problem_of_mem_namingCheck found with ⟨keyword, h⟩ | ⟨keyword, h⟩ | h
  · rw [h, Problem.family?]
  · rw [h, Problem.family?]
  · rw [h, Problem.family?]

theorem family?_of_mem_unclosedBlocks {ls : List Line} {stack : List Frame} {f : Finding}
    (found : f ∈ unclosedBlocks ls stack) : f.problem.family? = none := by
  obtain ⟨frame, _, rfl⟩ := List.mem_map.mp found
  rfl

theorem family?_of_mem_strayClose? {n : Nat} {line : Line} {depth : Int} {f : Finding}
    (found : f ∈ strayClose? n line depth) : f.problem.family? = some .commentNesting := by
  obtain ⟨_, column, _, rfl⟩ := strayClose?_eq_some_iff.mp found
  rfl

theorem family?_of_mem_unclosedComment? {ls : List Line} {p : Progress} {f : Finding}
    (found : f ∈ unclosedComment? ls p) : f.problem.family? = some .commentNesting := by
  obtain ⟨_, rfl⟩ := unclosedComment?_eq_some_iff.mp found
  rfl

theorem family?_of_mem_balanceCheck {text : Text} {ls : List Line} {f : Finding}
    (found : f ∈ Balance.check text ls) : f.problem.family? = some .brackets := by
  obtain ⟨_, rfl⟩ := Balance.check_eq_some_iff.mp found
  rfl

/-! ### The pass -/

variable (config : Config) (off : List Family)

/-- What an option lets through is filtered where the family of the option is turned off. -/
theorem filter_option {found : List Finding} {family : Family} (option : Bool)
    (one : ∀ f ∈ found, f.problem.family? = some family) :
    (if option && !off.contains family then found else []) =
      (if option then found else []).filter (Finding.outside off) := by
  cases option with
  | false => rfl
  | true =>
      rw [Bool.true_and, if_pos rfl, filter_outside off one]
      cases off.contains family <;> rfl

theorem checkCode_without (n : Nat) (line : Line) (stack : List Frame) :
    (checkCode (config.without off) n line stack).2 = (checkCode config n line stack).2 ∧
      (checkCode (config.without off) n line stack).1 =
        (checkCode config n line stack).1.filter (Finding.outside off) := by
  refine ⟨rfl, ?_⟩
  have literal : ∀ f ∈
      ((unclosedQuote? line).map fun q => onLine n line (.unclosedLiteral q)).toList,
      f.problem.family? = none := by
    intro f mem
    obtain ⟨q, _, rfl⟩ := Option.map_eq_some_iff.mp (Option.mem_toList.mp mem)
    rfl
  have structural (orphan : Option Text) : ∀ f ∈
      (orphan.map fun keyword => onLine n line (.unexpected keyword)).toList,
      f.problem.family? = none := by
    intro f mem
    obtain ⟨keyword, _, rfl⟩ := Option.map_eq_some_iff.mp (Option.mem_toList.mp mem)
    rfl
  simp only [checkCode, List.filter_append, filter_outside_of_none off literal,
    filter_outside_of_none off (structural _)]
  congr 2
  exact filter_option off config.checkNaming fun f => family?_of_mem_namingCheck

/-- What a line says about the nesting of comments, if this is reported. -/
theorem strays_without (n : Nat) (line : Line) (depth : Int) :
    (if (config.without off).reportCommentNesting then (strayClose? n line depth).toList else []) =
      (if config.reportCommentNesting then (strayClose? n line depth).toList else []).filter
        (Finding.outside off) :=
  filter_option off config.reportCommentNesting fun _ mem =>
    family?_of_mem_strayClose? (Option.mem_toList.mp mem)

/-- One line: the pass goes on as it would with all families, and finds the same apart from those
that are turned off. -/
theorem step_without (n : Nat) (line : Line) (p : Progress) :
    (p.step (config.without off) n line).1 = (p.step config n line).1 ∧
      (p.step (config.without off) n line).2.code =
        (p.step config n line).2.code.filter (Finding.outside off) ∧
      (p.step (config.without off) n line).2.comments =
        (p.step config n line).2.comments.filter (Finding.outside off) := by
  obtain ⟨hstack, hfound⟩ := checkCode_without config off n line p.stack
  have hstrays := strays_without config off n line p.depth
  refine ⟨by simp only [step_eq, hstack], ?code, by rw [comments_step, hstrays, comments_step]⟩
  case code =>
    rw [code_step, code_step, hfound]
    split <;> rfl

/-- A run over lines: the same holds of all of them. -/
theorem run_without (n : Nat) (p : Progress) (ls : List Line) :
    (p.run (config.without off) n ls).1 = (p.run config n ls).1 ∧
      (p.run (config.without off) n ls).2.code =
        (p.run config n ls).2.code.filter (Finding.outside off) ∧
      (p.run (config.without off) n ls).2.comments =
        (p.run config n ls).2.comments.filter (Finding.outside off) := by
  induction ls generalizing n p with
  | nil => exact ⟨rfl, rfl, rfl⟩
  | cons line rest ih =>
      obtain ⟨hnext, hcode, hcomments⟩ := step_without config off n line p
      obtain ⟨hlast, laterCode, laterComments⟩ := ih (n + 1) (p.step config n line).1
      simp only [Progress.run, LineFindings.append, hnext, hlast, hcode, hcomments, laterCode,
        laterComments, List.filter_append, and_self]

/-! ### The whole document -/

/-- Turning families off deletes their findings from the report. -/
theorem inspect_without (text : Text) :
    (inspect (config.without off) text).all =
      (inspect config text).all.filter (Finding.outside off) := by
  obtain ⟨hlast, hcode, hcomments⟩ := run_without config off 0 {} (lines text)
  have blocks (stack : List Frame) :
      (unclosedBlocks (lines text) stack).filter (Finding.outside off) =
        unclosedBlocks (lines text) stack :=
    filter_outside_of_none off fun _ => family?_of_mem_unclosedBlocks
  have unclosed (p : Progress) :
      (if (config.without off).reportCommentNesting then unclosedComment? (lines text) p
        else none).toList =
      (if config.reportCommentNesting then unclosedComment? (lines text) p
        else none).toList.filter (Finding.outside off) := by
    simp only [apply_ite Option.toList, Option.toList_none]
    exact filter_option off config.reportCommentNesting fun _ mem =>
      family?_of_mem_unclosedComment? (Option.mem_toList.mp mem)
  have brackets :
      (if (config.without off).checkBrackets then Balance.check text (lines text)
        else none).toList =
      (if config.checkBrackets then Balance.check text (lines text)
        else none).toList.filter (Finding.outside off) := by
    simp only [apply_ite Option.toList, Option.toList_none]
    exact filter_option off config.checkBrackets fun _ mem =>
      family?_of_mem_balanceCheck (Option.mem_toList.mp mem)
  simp only [inspect, Report.all, List.filter_append, hlast, hcode, hcomments, blocks, unclosed,
    brackets]

theorem validate_without (text : Text) :
    validate (config.without off) text =
      (validate config text).filter fun d => ∀ family ∈ off, ¬ family.Covers d := by
  rw [validate, inspect_without, validate, List.filter_map]
  refine congrArg (List.map _) (List.filter_congr fun f _ => ?_)
  rw [Function.comp_apply, Bool.eq_iff_iff, decide_eq_true_iff]
  exact outside_iff off config.source f

/-! ### Source and indentation -/

variable {config} {other : Config}

/-- The pass reads no options but the one for names and the one for the nesting of comments. -/
theorem run_congr (names : other.checkNaming = config.checkNaming)
    (nesting : other.reportCommentNesting = config.reportCommentNesting) (n : Nat) (p : Progress)
    (ls : List Line) : p.run other n ls = p.run config n ls := by
  induction ls generalizing n p with
  | nil => rfl
  | cons line rest ih =>
      have here : p.step other n line = p.step config n line := by
        simp only [step_eq, checkCode, names, nesting]
      simp only [Progress.run, here, ih]

/-- What is found depends on the options of the three families only. -/
theorem inspect_congr (names : other.checkNaming = config.checkNaming)
    (brackets : other.checkBrackets = config.checkBrackets)
    (nesting : other.reportCommentNesting = config.reportCommentNesting) (text : Text) :
    inspect other text = inspect config text := by
  simp only [inspect, run_congr names nesting, brackets, nesting]

variable (config)

/-- Turning families of checks off deletes their diagnostics and leaves all others in their order.
Another source is named in every diagnostic, which is all that it changes, and another indent width
changes nothing. -/
theorem check_families_are_independent (text : Text) :
    (∀ off, validate (config.without off) text =
        (validate config text).filter fun d => ∀ family ∈ off, ¬ family.Covers d) ∧
      (∀ source, validate { config with source } text =
        (validate config text).map fun d => { d with source }) ∧
      ∀ indentWidth, validate { config with indentWidth } text = validate config text := by
  refine ⟨fun off => validate_without config off text, fun source => ?_, fun indentWidth => ?_⟩
  · have same : inspect { config with source } text = inspect config text :=
      inspect_congr (by rfl) (by rfl) (by rfl) text
    rw [validate, same, validate, List.map_map]
    rfl
  · have same : inspect { config with indentWidth } text = inspect config text :=
      inspect_congr (by rfl) (by rfl) (by rfl) text
    rw [validate, same, validate]

end Dragonstone
