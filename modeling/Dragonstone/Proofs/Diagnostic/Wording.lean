/-
# Problems told by their wording

A client sees the wording of a problem and not the problem.  The last two letters of a wording
already tell most kinds of problems apart, whatever keyword or number the wording quotes before
them.  From this follows what the other modules need: which wordings speak of the nesting of
blocks.
-/

import Dragonstone.Diagnostic

namespace Dragonstone

/-- The last two characters of a wording, the very last one first. -/
def coda (wording : String) : List Char :=
  wording.toList.reverse.take 2

/-- What stands in front of two characters has no influence on them. -/
theorem coda_append {b : String} (a : String) (long : 2 ≤ b.toList.length) :
    coda (a ++ b) = coda b := by
  rw [coda, coda, String.toList_append, List.reverse_append, List.take_append_of_le_length]
  simpa using long

namespace Problem

/-- How the wording of each kind of problem ends. -/
def ending : Problem → List Char
  | .unclosedLiteral _ => [')', ')']
  | .lowercaseType _ => ['r', 'e']
  | .capitalizedCallable _ => ['r', 'e']
  | .mixedCaseConstant => ['E', 'S']
  | .unexpected _ => ['t', 'r']
  | .unclosedBlock _ => ['k', 'c']
  | .strayCommentClose => ['\x22', '#']
  | .unclosedComment => ['t', 'n']
  | .mismatchedBrackets .. => ['\x7d', '\x7b']

/-- The wording of a problem ends as its kind says. -/
theorem coda_message (p : Problem) : coda p.message = p.ending := by
  cases p with
  | unclosedLiteral quote => cases quote <;> decide
  | lowercaseType keyword => exact coda_append _ (by decide)
  | capitalizedCallable keyword => exact coda_append _ (by decide)
  | mixedCaseConstant => decide
  | unexpected keyword => exact coda_append _ (by decide)
  | unclosedBlock keyword => exact coda_append _ (by decide)
  | strayCommentClose => decide
  | unclosedComment => decide
  | mismatchedBrackets paren square brace => exact coda_append _ (by decide)

/-- A problem that quotes no keyword and no number is told by its wording. -/
theorem eq_of_message_eq {p q : Problem}
    (bare : q ∈ [.mixedCaseConstant, .strayCommentClose, .unclosedComment])
    (wording : p.message = q.message) : p = q := by
  have ending : p.ending = q.ending := by rw [← p.coda_message, wording, q.coda_message]
  obtain rfl | rfl | rfl : q = .mixedCaseConstant ∨ q = .strayCommentClose ∨
      q = .unclosedComment := by simpa using bare
  all_goals cases p <;> simp_all [Problem.ending]

/-- The problem is one of the nesting of blocks. -/
def concernsBlocks : Problem → Bool
  | .unexpected _ => true
  | .unclosedBlock _ => true
  | _ => false

end Problem

/-- The wording of a branch or terminator that has no open block. -/
def unexpectedWording (keyword : String) : String :=
  "Unexpected \"" ++ keyword ++ "\" without matching block start"

/-- The wording of a block that is never closed. -/
def unclosedWording (keyword : String) : String :=
  "Unclosed \"" ++ keyword ++ "\" block"

/-- The diagnostic says that a branch or terminator has no open block, or that a block is not
closed, whatever keyword it names. -/
def Diagnostic.SpeaksOfBlocks (d : Diagnostic) : Prop :=
  ∃ keyword, d.message = unexpectedWording keyword ∨ d.message = unclosedWording keyword

/-- A diagnostic speaks of blocks exactly if the problem behind it is one of their nesting. -/
theorem speaksOfBlocks_toDiagnostic (source : String) (f : Finding) :
    (f.toDiagnostic source).SpeaksOfBlocks ↔ f.problem.concernsBlocks = true := by
  obtain ⟨range, problem⟩ := f
  constructor
  · rintro ⟨keyword, hmessage | hmessage⟩
    · have hending : problem.ending = ['t', 'r'] := by
        rw [← problem.coda_message, show problem.message = unexpectedWording keyword from hmessage]
        exact coda_append _ (by decide)
      cases problem with
      | unexpected found => rfl
      | _ => simp [Problem.ending] at hending
    · have hending : problem.ending = ['k', 'c'] := by
        rw [← problem.coda_message, show problem.message = unclosedWording keyword from hmessage]
        exact coda_append _ (by decide)
      cases problem with
      | unclosedBlock found => rfl
      | _ => simp [Problem.ending] at hending
  · intro hblocks
    cases problem with
    | unexpected keyword => exact ⟨String.ofList keyword, Or.inl rfl⟩
    | unclosedBlock keyword => exact ⟨String.ofList keyword, Or.inr rfl⟩
    | _ => cases hblocks

end Dragonstone
