/-
# Families of checks

Three families of checks can be turned off: the conventions of names, the balance of brackets and
the nesting of block comments.  A client has only the wording of a diagnostic to tell them by, so
the families are given here by their wordings, and the main statement is that a wording belongs to
a family exactly if the problem behind it does.  Literals and blocks are always checked and belong
to no family.
-/

import Dragonstone.Config
import Dragonstone.Proofs.Diagnostic.Wording

namespace Dragonstone

/-- A family of checks that can be turned off. -/
inductive Family where
  | naming
  | brackets
  | commentNesting
  deriving DecidableEq, Repr

/-- A configuration with some families turned off. -/
def Config.without (c : Config) (off : List Family) : Config :=
  { c with
    checkNaming := c.checkNaming && !off.contains .naming
    checkBrackets := c.checkBrackets && !off.contains .brackets
    reportCommentNesting := c.reportCommentNesting && !off.contains .commentNesting }

/-- The diagnostic is worded as those of the family are, whatever keyword or number it names. -/
def Family.Covers (d : Diagnostic) : Family → Prop
  | .naming =>
    " name must start with a capital letter".toList <:+ d.message.toList ∨
      " name must start with a lowercase letter".toList <:+ d.message.toList ∨
      d.message = "Constants without keyword should be in SCREAMING_SNAKE_CASE"
  | .brackets =>
    "Document has mismatched brackets: ".toList <+: d.message.toList ∧
      " unclosed \x7b\x7d".toList <:+ d.message.toList
  | .commentNesting =>
    d.message = "Unmatched block comment close \"]#\"" ∨ d.message = "Unclosed block comment"

instance (d : Diagnostic) (family : Family) : Decidable (family.Covers d) := by
  cases family <;> unfold Family.Covers <;> infer_instance

/-- The family whose checks find the problem. -/
def Problem.family? : Problem → Option Family
  | .lowercaseType _ | .capitalizedCallable _ | .mixedCaseConstant => some .naming
  | .strayCommentClose | .unclosedComment => some .commentNesting
  | .mismatchedBrackets .. => some .brackets
  | _ => none

/-- How the wordings of a family end, the very last character first. -/
def Family.endings : Family → List (List Char)
  | .naming => [['r', 'e'], ['E', 'S']]
  | .brackets => [['\x7d', '\x7b']]
  | .commentNesting => [['\x22', '#'], ['t', 'n']]

/-- A wording ends as its last part does. -/
theorem coda_of_suffix {wording : String} {part : List Char} (long : 2 ≤ part.length)
    (h : part <:+ wording.toList) : coda wording = part.reverse.take 2 := by
  obtain ⟨front, whole⟩ := h
  rw [coda, ← whole, List.reverse_append, List.take_append_of_le_length]
  simpa using long

theorem Family.coda_mem_endings {family : Family} {d : Diagnostic} (covers : family.Covers d) :
    coda d.message ∈ family.endings := by
  cases family with
  | naming =>
      obtain capital | lowercase | constant := covers
      · rw [coda_of_suffix (by decide) capital]
        decide
      · rw [coda_of_suffix (by decide) lowercase]
        decide
      · rw [constant]
        decide
  | brackets =>
      rw [coda_of_suffix (by decide) covers.2]
      decide
  | commentNesting =>
      obtain stray | unclosed := covers
      · rw [stray]
        decide
      · rw [unclosed]
        decide

/-- The ending of a problem tells its family. -/
theorem Problem.family?_of_ending {p : Problem} {family : Family}
    (ending : p.ending ∈ family.endings) : p.family? = some family := by
  cases p <;> cases family <;> simp_all [Problem.ending, Family.endings, Problem.family?]

theorem toList_suffix_append (a b : String) : b.toList <:+ (a ++ b).toList := by
  rw [String.toList_append]
  exact List.suffix_append _ _

theorem toList_prefix_append (a b : String) : a.toList <+: (a ++ b).toList := by
  rw [String.toList_append]
  exact List.prefix_append _ _

/-- The wording of every problem of a family is covered by it. -/
theorem Family.covers_of_family? {family : Family} {source : String} {f : Finding}
    (known : f.problem.family? = some family) : family.Covers (f.toDiagnostic source) := by
  obtain ⟨range, problem⟩ := f
  cases problem with
  | lowercaseType keyword =>
      cases known
      exact .inl (toList_suffix_append _ _)
  | capitalizedCallable keyword =>
      cases known
      exact .inr (.inl (toList_suffix_append _ _))
  | mixedCaseConstant =>
      cases known
      exact .inr (.inr rfl)
  | strayCommentClose =>
      cases known
      exact .inl rfl
  | unclosedComment =>
      cases known
      exact .inr rfl
  | mismatchedBrackets paren square brace =>
      cases known
      refine ⟨?_, toList_suffix_append _ _⟩
      show _ <+: ("Document has mismatched brackets: " ++ toString paren ++ " unclosed (), " ++
        toString square ++ " unclosed [], " ++ toString brace ++ " unclosed \x7b\x7d").toList
      rw [String.append_assoc, String.append_assoc, String.append_assoc, String.append_assoc,
        String.append_assoc]
      exact toList_prefix_append _ _
  | _ => cases known

/-- A diagnostic is worded as a family's are exactly if the problem behind it is the family's. -/
theorem covers_toDiagnostic_iff (family : Family) (source : String) (f : Finding) :
    family.Covers (f.toDiagnostic source) ↔ f.problem.family? = some family := by
  constructor
  · intro covers
    apply Problem.family?_of_ending
    rw [← f.problem.coda_message]
    exact family.coda_mem_endings covers
  · exact Family.covers_of_family?

end Dragonstone
