/-
# Indentation and what is found in a document

Blanks in front of lines have no influence on what is said about a document, but for the columns in
which it is said: the same diagnostics begin on the same lines, and the same symbols are listed.

It is enough to compare a document with its dedented form.  What the pass of the validation carries
from line to line is not even moved: the depth of comments, the line of the comment that is open,
and the stack of blocks are the same before every line.  The balance of brackets, which is read off
the whole document, has its own module.
-/

import Dragonstone.Proofs.LeadingSpace.Balance
import Dragonstone.Proofs.LeadingSpace.Definition
import Dragonstone.Proofs.Validation.Pass
import Dragonstone.Symbol

namespace Dragonstone

open Block

/-- What a diagnostic says apart from columns. -/
def Diagnostic.apartFromColumns (d : Diagnostic) : Severity × Int × String × String :=
  (d.severity, d.range.start.line, d.message, d.source)

/-- What a symbol says apart from the range that it covers. -/
def Symbol.apartFromRange (s : Symbol) : Text × SymbolKind × Int × Option Text :=
  (s.name, s.kind, s.line, s.detail)

/-! ### One line -/

theorem isSkipped_skipBlanks (line : Line) : isSkipped (skipBlanks line) = isSkipped line :=
  apply_dropWhile (fun _ rest hc => isSkipped_cons (isSpace_of_isBlank hc) rest) line

theorem strayClose?_cons {c : Char} (hc : isSpace c = true) (n : Nat) (line : Line) (depth : Int) :
    (strayClose? n (c :: line) depth).map Finding.apartFromColumns =
      (strayClose? n line depth).map Finding.apartFromColumns := by
  rw [strayClose?, strayClose?, scanComments_cons hc, strayCloses_cons hc, List.head?_map]
  by_cases hclosed : (scanComments line depth).overClosed = 0
  · rw [if_pos hclosed, if_pos hclosed]
  · rw [if_neg hclosed, if_neg hclosed, Option.map_map, Option.map_map, Option.map_map]
    rfl

/-- The stray closing markers of a line move with its indentation, and no more. -/
theorem strayClose?_skipBlanks (n : Nat) (line : Line) (depth : Int) :
    (strayClose? n (skipBlanks line) depth).map Finding.apartFromColumns =
      (strayClose? n line depth).map Finding.apartFromColumns :=
  apply_dropWhile
    (f := fun line => (strayClose? n line depth).map Finding.apartFromColumns)
    (fun _ rest hc => strayClose?_cons (isSpace_of_isBlank hc) n rest depth) line

/-- The indentation of a line of code has no influence on the stack after the line, and on its
findings none but for columns. -/
theorem checkCode_skipBlanks (config : Config) (n : Nat) (line : Line) (stack : List Frame) :
    (checkCode config n (skipBlanks line) stack).2 = (checkCode config n line stack).2 ∧
      (checkCode config n (skipBlanks line) stack).1.map Finding.apartFromColumns =
        (checkCode config n line stack).1.map Finding.apartFromColumns := by
  have hform : Form.ofLine (mask (skipBlanks line)) = Form.ofLine (mask line) :=
    apply_mask_skipBlanks (fun _ rest hc => ofLine_cons hc rest) line
  have hquote : unclosedQuote? (skipBlanks line) = unclosedQuote? line :=
    apply_dropWhile (fun _ rest hc => unclosedQuote?_cons (isSpace_of_isBlank hc) rest) line
  constructor
  · simp only [checkCode, hform]
  · simp only [checkCode, hform, hquote, List.map_append, ← Option.toList_map, Option.map_map]
    congr 2
    split
    · rw [Naming.check_mask_skipBlanks]
    · rfl

/-! ### The pass -/

/-- What the findings of a stretch of lines say apart from columns. -/
def LineFindings.apartFromColumns (found : LineFindings) :
    List (Problem × Int) × List (Problem × Int) :=
  (found.code.map Finding.apartFromColumns, found.comments.map Finding.apartFromColumns)

/-- One line: the pass goes on as it would without the indentation, and finds the same. -/
theorem step_skipBlanks (config : Config) (n : Nat) (line : Line) (p : Progress) :
    (p.step config n (skipBlanks line)).1 = (p.step config n line).1 ∧
      (p.step config n (skipBlanks line)).2.apartFromColumns =
        (p.step config n line).2.apartFromColumns := by
  obtain ⟨hstack, hcode⟩ := checkCode_skipBlanks config n line p.stack
  have hstrays : (if config.reportCommentNesting
        then (strayClose? n (skipBlanks line) p.depth).toList else []).map
          Finding.apartFromColumns =
      (if config.reportCommentNesting then (strayClose? n line p.depth).toList else []).map
          Finding.apartFromColumns := by
    split
    · rw [← Option.toList_map, strayClose?_skipBlanks, Option.toList_map]
    · rfl
  simp only [step_eq, scanComments_skipBlanks, isSkipped_skipBlanks, hstack,
    LineFindings.apartFromColumns, hstrays, apply_ite (List.map Finding.apartFromColumns), hcode,
    and_self]

/-- A run over lines goes as it would without indentation, and finds the same. -/
theorem run_skipBlanks (config : Config) (n : Nat) (p : Progress) (ls : List Line) :
    (p.run config n (ls.map skipBlanks)).1 = (p.run config n ls).1 ∧
      (p.run config n (ls.map skipBlanks)).2.apartFromColumns =
        (p.run config n ls).2.apartFromColumns := by
  induction ls generalizing n p with
  | nil => exact ⟨rfl, rfl⟩
  | cons line rest ih =>
      obtain ⟨hnext, hhere⟩ := step_skipBlanks config n line p
      obtain ⟨hlast, hlater⟩ := ih (n + 1) (p.step config n line).1
      simp only [LineFindings.apartFromColumns, Prod.mk.injEq] at hhere hlater
      simp only [List.map_cons, Progress.run, hnext]
      refine ⟨hlast, ?_⟩
      simp only [LineFindings.apartFromColumns, LineFindings.append, List.map_append, hhere,
        hlater]

/-! ### The whole document -/

/-- Two optional findings that agree still agree where an option suppresses both. -/
theorem map_ite_none {α β : Type} {f : α → β} {found found' : Option α} (option : Bool)
    (same : found.map f = found'.map f) :
    (if option then found else none).map f = (if option then found' else none).map f := by
  cases option with
  | true => exact same
  | false => rfl

/-- What is said about blocks that are left open does not depend on how the lines read. -/
theorem unclosedBlocks_apartFromColumns (ls ls' : List Line) (stack : List Frame) :
    (unclosedBlocks ls stack).map Finding.apartFromColumns =
      (unclosedBlocks ls' stack).map Finding.apartFromColumns := by
  rw [unclosedBlocks, unclosedBlocks, List.map_map, List.map_map]
  rfl

theorem unclosedComment?_apartFromColumns (ls ls' : List Line) (p : Progress) :
    (unclosedComment? ls p).map Finding.apartFromColumns =
      (unclosedComment? ls' p).map Finding.apartFromColumns := by
  rw [unclosedComment?, unclosedComment?]
  split
  · rfl
  · rfl

theorem check_dedent (text : Text) (ls ls' : List Line) :
    (Balance.check (dedent text) ls).map Finding.apartFromColumns =
      (Balance.check text ls').map Finding.apartFromColumns := by
  simp only [Balance.check, Balance.hasBenignIdiom_strip_dedent, Balance.surplus_strip_dedent]
  split
  · rfl
  · rfl

/-- Dedenting a document moves its findings, and no more. -/
theorem inspect_dedent (config : Config) (text : Text) :
    (inspect config (dedent text)).all.map Finding.apartFromColumns =
      (inspect config text).all.map Finding.apartFromColumns := by
  obtain ⟨hlast, hfound⟩ := run_skipBlanks config 0 {} (lines text)
  simp only [LineFindings.apartFromColumns, Prod.mk.injEq] at hfound
  obtain ⟨hcode, hcomments⟩ := hfound
  have hblocks := unclosedBlocks_apartFromColumns ((lines text).map skipBlanks) (lines text)
    (Progress.run config 0 {} (lines text)).1.stack
  have hopen := map_ite_none config.reportCommentNesting
    (unclosedComment?_apartFromColumns ((lines text).map skipBlanks) (lines text)
      (Progress.run config 0 {} (lines text)).1)
  have hbrackets := map_ite_none config.checkBrackets
    (check_dedent text ((lines text).map skipBlanks) (lines text))
  simp only [inspect, Report.all, lines_dedent, hlast, List.map_append, ← Option.toList_map,
    hcode, hcomments, hblocks, hopen, hbrackets]

/-- Dedenting a document leaves its diagnostics on their lines. -/
theorem validate_dedent (config : Config) (text : Text) :
    (validate config (dedent text)).map Diagnostic.apartFromColumns =
      (validate config text).map Diagnostic.apartFromColumns := by
  -- A diagnostic says what its finding says, in the words of the problem.
  let say : Problem × Int → Severity × Int × String × String := fun said =>
    (said.1.severity, said.2, said.1.message, config.source)
  calc (validate config (dedent text)).map Diagnostic.apartFromColumns
      = ((inspect config (dedent text)).all.map Finding.apartFromColumns).map say := by
        rw [validate, List.map_map, List.map_map]
        rfl
    _ = ((inspect config text).all.map Finding.apartFromColumns).map say := by
        rw [inspect_dedent]
    _ = (validate config text).map Diagnostic.apartFromColumns := by
        rw [validate, List.map_map, List.map_map]
        rfl

theorem outlineFrom_skipBlanks (n : Nat) (depth : Int) (ls : List Line) :
    (outlineFrom n depth (ls.map skipBlanks)).map Symbol.apartFromRange =
      (outlineFrom n depth ls).map Symbol.apartFromRange := by
  induction ls generalizing n depth with
  | nil => rfl
  | cons line rest ih =>
      simp only [List.map_cons, outlineFrom, scanComments_skipBlanks,
        Definition.ofLine?_skipBlanks, List.map_append, ih]
      congr 1
      rw [← Option.toList_map, ← Option.toList_map]
      split
      · rfl
      · rw [Option.map_map, Option.map_map]
        rfl

/-- Two documents with the same breaks whose lines are equal behind the blanks in front of them get
the same diagnostics on the same lines and have the same symbols, whatever the options. -/
theorem indentation_has_no_influence (config : Config) {a b : Text}
    (breaks : lineBreaks a = lineBreaks b)
    (behindBlanks : (lines a).map skipBlanks = (lines b).map skipBlanks) :
    (validate config a).map Diagnostic.apartFromColumns =
        (validate config b).map Diagnostic.apartFromColumns ∧
      (outline a).map Symbol.apartFromRange = (outline b).map Symbol.apartFromRange := by
  constructor
  · rw [← validate_dedent, dedent_eq_of_lines breaks behindBlanks, validate_dedent]
  · rw [outline, ← outlineFrom_skipBlanks, behindBlanks, outlineFrom_skipBlanks, outline]

/-- The literal and the bracketed alias of this document go over the ends of their lines. -/
theorem indentation_has_no_influence_across_lines :
    (validate {} "def Area\r\n\tx as\n\t\t[ 1, \"2\\\n   ] ]#".toList).map
        Diagnostic.apartFromColumns =
      (validate {} "  def Area\r\nx as\n[ 1, \"2\\\n\t] ]#".toList).map
        Diagnostic.apartFromColumns ∧
    (outline "def Area\r\n\tx as\n\t\t[ 1, \"2\\\n   ] ]#".toList).map
        Symbol.apartFromRange =
      (outline "  def Area\r\nx as\n[ 1, \"2\\\n\t] ]#".toList).map Symbol.apartFromRange :=
  indentation_has_no_influence {} (by decide +kernel) (by decide +kernel)

end Dragonstone
