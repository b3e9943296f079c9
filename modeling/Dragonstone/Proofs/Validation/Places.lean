/-
# Ranges lie in the document

Every range that an analysis gives out covers a stretch of one line of the document: those of
diagnostics, of symbols, of edits and of the word at a position.  Those on names cover a whole
identifier of the line, and those on stray closing markers cover the marker.

The ranges come about in different ways, and each has its own reason.  Names are found in the masked
line, which has the columns of the line; strays by a walk over the markers of the line; indentation
is a front part of its line.  Blocks and comments that are left open are the odd ones: only the
numbers of their lines are kept, and the lines are looked up when the document has ended.
-/

import Dragonstone.Proofs.Comment.Strays
import Dragonstone.Proofs.Indentation.Applied
import Dragonstone.Proofs.Lookup.Identifiers
import Dragonstone.Proofs.Lookup.Outline
import Dragonstone.Proofs.Naming.Coverage
import Dragonstone.Proofs.Validation.Remembered

namespace Dragonstone

open Block

/-- The range covers the columns from `start` to `stop` of a line of the document. -/
def Range.Marks (r : Range) (ls : List Line) (line : Line) (start stop : Nat) : Prop :=
  ∃ k, ls[k]? = some line ∧ r = Range.inLine k start stop ∧ start ≤ stop ∧ stop ≤ line.length

/-- The range covers a stretch of one line of the document. -/
def Range.LiesIn (r : Range) (ls : List Line) : Prop :=
  ∃ line start stop, r.Marks ls line start stop

theorem marks_wholeLine {ls : List Line} {k : Nat} {line : Line} (at_ : ls[k]? = some line) :
    (Range.wholeLine k line.length).Marks ls line 0 line.length :=
  ⟨k, at_, rfl, Nat.zero_le _, Nat.le_refl _⟩

/-! ### Strays cover markers -/

/-- Where a line has a stray, the closing marker is written. -/
theorem between_of_mem_strayCloses {line : Line} {depth : Int} {column : Nat}
    (mem : column ∈ strayCloses line depth) :
    Lookup.between line column (column + 2) = Vocabulary.commentClose ∧
      column + 2 ≤ line.length := by
  obtain ⟨rest, written⟩ := written_of_mem_strayCloses mem
  constructor
  · rw [Lookup.between, List.drop_take, ← written, Nat.add_sub_cancel_left]
    rfl
  · have length := congrArg List.length written
    rw [List.length_append, List.length_drop] at length
    simp only [List.length_cons, List.length_nil] at length
    omega

/-! ### Findings -/

/-- The finding is on a stretch of one line: a name on a whole identifier, a stray on its marker. -/
def Finding.InPlace (ls : List Line) (f : Finding) : Prop :=
  ∃ line start stop, f.range.Marks ls line start stop ∧
    (f.problem.family? = some .naming → start < stop ∧ IdentifierAt line start stop) ∧
    (f.problem = .strayCommentClose →
      Lookup.between line start stop = Vocabulary.commentClose)

/-- A finding of the problem covers its line, and not a name or a marker alone. -/
def Problem.coversLine : Problem → Bool
  | .lowercaseType _ | .capitalizedCallable _ | .mixedCaseConstant | .strayCommentClose => false
  | _ => true

section Findings

variable {config : Config} {ls : List Line} {k : Nat} {line : Line} {f : Finding}

theorem inPlace_onLine (at_ : ls[k]? = some line) {problem : Problem}
    (whole : problem.coversLine = true) : (onLine k line problem).InPlace ls := by
  have other : problem.family? ≠ some .naming ∧ problem ≠ .strayCommentClose := by
    cases problem <;> simp_all [Problem.coversLine, Problem.family?]
  exact ⟨line, 0, line.length, marks_wholeLine at_, fun name => absurd name other.1,
    fun stray => absurd stray other.2⟩

theorem inPlace_of_mem_checkCode (at_ : ls[k]? = some line) {stack : List Frame}
    (found : f ∈ (checkCode config k line stack).1) : f.InPlace ls := by
  obtain ⟨_, _, rfl⟩ | ⟨_, name⟩ | ⟨_, _, rfl⟩ := mem_checkCode_iff.mp found
  · exact inPlace_onLine at_ rfl
  · obtain ⟨start, stop, range, nonempty, inside, covered⟩ :=
      Naming.coversIdentifier_of_mem_check_mask name
    refine ⟨line, start, stop, ⟨k, at_, range, Nat.le_of_lt nonempty, inside⟩,
      fun _ => ⟨nonempty, covered⟩, fun stray => ?_⟩
    have family := family?_of_mem_namingCheck name
    rw [stray] at family
    cases family
  · exact inPlace_onLine at_ rfl

theorem inPlace_of_strayClose? (at_ : ls[k]? = some line) {depth : Int}
    (found : strayClose? k line depth = some f) : f.InPlace ls := by
  obtain ⟨_, column, first, rfl⟩ := strayClose?_eq_some_iff.mp found
  obtain ⟨marker, inside⟩ := between_of_mem_strayCloses (List.mem_of_mem_head? first)
  refine ⟨line, column, column + 2, ⟨k, at_, rfl, Nat.le_add_right _ _, inside⟩, ?_,
    fun _ => marker⟩
  intro naming
  cases naming

/-- A line that is remembered is looked up in the document. -/
theorem inPlace_onLine_getElem? (inside : k < ls.length) {problem : Problem}
    (whole : problem.coversLine = true) :
    (onLine k (ls[k]?.getD []) problem).InPlace ls := by
  have at_ : ls[k]? = some (ls[k]?.getD []) := by
    rw [List.getElem?_eq_getElem inside]
    rfl
  exact inPlace_onLine at_ whole

theorem inPlace_of_mem_unclosedBlocks {stack : List Frame} (opened : OpenedBefore ls.length stack)
    (found : f ∈ unclosedBlocks ls stack) : f.InPlace ls := by
  obtain ⟨frame, mem, rfl⟩ := List.mem_map.mp found
  exact inPlace_onLine_getElem? (opened.line_lt frame (List.mem_reverse.mp mem)) rfl

theorem inPlace_of_mem_unclosedComment? {p : Progress} {strays : List Finding}
    (remembers : p.Remembers ls.length strays) (found : f ∈ unclosedComment? ls p) :
    f.InPlace ls := by
  obtain ⟨deep, rfl⟩ := unclosedComment?_eq_some_iff.mp found
  obtain ⟨k, start, seen, _⟩ := remembers.comment deep
  rw [start]
  exact inPlace_onLine_getElem? seen rfl

theorem inPlace_of_mem_balanceCheck {text : Text} (some_ : ls ≠ [])
    (found : f ∈ Balance.check text ls) : f.InPlace ls := by
  obtain ⟨line, rest, rfl⟩ := List.exists_cons_of_ne_nil some_
  obtain ⟨_, rfl⟩ := Balance.check_eq_some_iff.mp found
  have first : (line :: rest)[0]? = some line := rfl
  exact inPlace_onLine first rfl

/-- Whatever is found in a document has its place there. -/
theorem inPlace_of_mem_inspect (config : Config) (text : Text) :
    ∀ f ∈ (inspect config text).all, f.InPlace (lines text) := by
  intro f found
  have remembers := remembers_lines config (lines text)
  simp only [Report.all, List.mem_append, mem_comments_inspect_iff,
    mem_brackets_inspect_iff] at found
  obtain ((code | blocks) | stray | ⟨_, unclosed⟩) | ⟨_, brackets⟩ := found
  · obtain ⟨i, line, stack, at_, here⟩ := exists_mem_checkCode_of_mem_run code
    rw [Nat.zero_add] at here
    exact inPlace_of_mem_checkCode at_ here
  · exact inPlace_of_mem_unclosedBlocks remembers.blocks blocks
  · obtain ⟨i, line, depth, at_, here⟩ := exists_strayClose?_of_mem_run stray
    rw [Nat.zero_add] at here
    exact inPlace_of_strayClose? at_ here
  · exact inPlace_of_mem_unclosedComment? remembers unclosed
  · exact inPlace_of_mem_balanceCheck (lines_ne_nil text) brackets

end Findings

/-! ### Symbols, edits and words -/

/-- Every symbol covers one of the lines. -/
theorem exists_of_mem_outlineFrom {n : Nat} {depth : Int} {ls : List Line} {s : Symbol}
    (mem : s ∈ outlineFrom n depth ls) :
    ∃ i line, ls[i]? = some line ∧ s.range = Range.wholeLine (n + i) line.length := by
  obtain ⟨i, line, d, at_, _, rfl⟩ := exists_toSymbol_of_mem_outlineFrom mem
  exact ⟨i, line, at_, rfl⟩

theorem liesIn_of_wordIn? {text : Text} {p : Position} {w : Text} {r : Range}
    (found : Lookup.wordIn? text p = some (w, r)) : r.LiesIn (lines text) := by
  unfold Lookup.wordIn? at found
  by_cases natural : 0 ≤ p.line
  · simp only [if_pos natural, Option.bind_eq_bind, Option.bind_eq_some_iff] at found
    obtain ⟨line, at_, ⟨start, stop⟩, touched, h⟩ := found
    cases h
    obtain ⟨ordered, inside⟩ :=
      Lookup.bounds_of_mem_identifierSpans (List.mem_of_find?_eq_some touched)
    rw [Nat.zero_add] at inside
    refine ⟨line, start, stop, p.line.toNat, at_, ?_, ordered, inside⟩
    rw [Range.inLine, Int.toNat_of_nonneg natural]
  · simp [natural] at found

/-! ### All ranges -/

/-- Of all problems, only a stray is worded like one. -/
theorem problem_eq_of_message {p : Problem}
    (wording : p.message = "Unmatched block comment close \"]#\"") : p = .strayCommentClose :=
  Problem.eq_of_message_eq (by simp) wording

/-- All ranges that are given out lie in the document: those of diagnostics, of symbols, of edits
for any width and of the word at any position.  A diagnostic about a name covers one whole
identifier of its line, and one about a stray covers a closing marker.

The line numbers that the pass has at the end are numbers of lines, there is a first line, and where
the count of a line goes below zero, the line has a stray; so nothing that is looked up is
missing. -/
theorem ranges_lie_in_document (config : Config) (text : Text) :
    (∀ d ∈ validate config text, d.range.LiesIn (lines text) ∧
      (Family.naming.Covers d → ∃ line start stop, d.range.Marks (lines text) line start stop ∧
        start < stop ∧ IdentifierAt line start stop) ∧
      (d.message = "Unmatched block comment close \"]#\"" →
        ∃ line start stop, d.range.Marks (lines text) line start stop ∧
          Lookup.between line start stop = Vocabulary.commentClose)) ∧
    (∀ s ∈ outline text, s.range.LiesIn (lines text)) ∧
    (∀ width, ∀ e ∈ formatEdits width text, e.range.LiesIn (lines text)) ∧
    (∀ p w r, Lookup.wordIn? text p = some (w, r) → r.LiesIn (lines text)) ∧
    let last := (Progress.run config 0 {} (lines text)).1
    (∀ frame ∈ last.stack, frame.line < (lines text).length) ∧
    (0 < last.depth → ∃ k, last.commentStart = some k ∧ k < (lines text).length) ∧
    0 < (lines text).length ∧
    EachLine (fun depth line => (scanComments line depth).overClosed ≠ 0 →
      strayCloses line depth ≠ []) 0 (lines text) := by
  have remembers := remembers_lines config (lines text)
  refine ⟨?diagnostics, ?symbols, ?edits, fun p w r => liesIn_of_wordIn?,
    remembers.blocks.line_lt, ?comment, List.length_pos_of_ne_nil (lines_ne_nil text), ?strays⟩
  case diagnostics =>
    intro d mem
    obtain ⟨f, found, rfl⟩ := List.mem_map.mp mem
    obtain ⟨line, start, stop, marks, name, stray⟩ := inPlace_of_mem_inspect config text f found
    refine ⟨⟨line, start, stop, marks⟩, fun covers => ?_, fun wording => ?_⟩
    · exact ⟨line, start, stop, marks, name ((covers_toDiagnostic_iff _ _ f).mp covers)⟩
    · exact ⟨line, start, stop, marks, stray (problem_eq_of_message wording)⟩
  case symbols =>
    intro s mem
    obtain ⟨i, line, at_, range⟩ := exists_of_mem_outlineFrom mem
    rw [Nat.zero_add] at range
    exact ⟨line, 0, line.length, range ▸ marks_wholeLine at_⟩
  case edits =>
    intro width e mem
    obtain ⟨i, line, at_, range⟩ := exists_of_mem_edits mem
    rw [Nat.zero_add] at range
    exact ⟨line, 0, (leadingSpace line).length, i, at_, range, Nat.zero_le _,
      (List.takeWhile_sublist _).length_le⟩
  case comment =>
    intro deep
    obtain ⟨k, start, inside, _⟩ := remembers.comment deep
    exact ⟨k, start, inside⟩
  case strays =>
    apply eachLine_of_nonneg _ (Int.le_refl 0)
    intro depth line nonneg below none
    exact below (overClosed_eq_zero_of_strayCloses nonneg none)

end Dragonstone
