/-
# Findings and diagnostics

A check reports findings: a range and the problem there.  A diagnostic is what a client sees of a
finding, with the severity and wording of its problem and the name of the source that reports it.
-/

import Dragonstone.Position
import Dragonstone.Role
import Dragonstone.Vocabulary

namespace Dragonstone

inductive Severity where
  | error
  | warning
  deriving DecidableEq, Repr

def Severity.label : Severity → String
  | .error => "error"
  | .warning => "warning"

/-- A message about a range of a document. -/
structure Diagnostic where
  severity : Severity
  range : Range
  message : String
  source : String
  deriving DecidableEq, Repr

inductive Problem where
  /-- A literal is still open at the end of its line. -/
  | unclosedLiteral (quote : Quote)
  /-- The name of a type or module begins with a small letter. -/
  | lowercaseType (keyword : Text)
  /-- The name of a method or function begins with a capital. -/
  | capitalizedCallable (keyword : Text)
  /-- A name that is assigned without a keyword has small letters. -/
  | mixedCaseConstant
  /-- A branch or an end has no open block. -/
  | unexpected (keyword : Text)
  /-- A block is open at the end of the document. -/
  | unclosedBlock (keyword : Text)
  /-- A block comment is closed that was not open. -/
  | strayCommentClose
  /-- A block comment is open at the end of the document. -/
  | unclosedComment
  /-- Brackets do not balance; positive numbers count openings without closings. -/
  | mismatchedBrackets (paren square brace : Int)
  deriving DecidableEq, Repr

namespace Problem

/-- Conventions and counts are warnings; names and structure are errors. -/
def severity : Problem → Severity
  | .mixedCaseConstant => .warning
  | .strayCommentClose => .warning
  | .unclosedComment => .warning
  | .mismatchedBrackets .. => .warning
  | _ => .error

def message : Problem → String
  | .unclosedLiteral quote => "Unclosed string literal (" ++ quote.name ++ ")"
  | .lowercaseType keyword => String.ofList keyword ++ " name must start with a capital letter"
  | .capitalizedCallable keyword =>
    String.ofList keyword ++ " name must start with a lowercase letter"
  | .mixedCaseConstant => "Constants without keyword should be in SCREAMING_SNAKE_CASE"
  | .unexpected keyword =>
    "Unexpected \"" ++ String.ofList keyword ++ "\" without matching block start"
  | .unclosedBlock keyword => "Unclosed \"" ++ String.ofList keyword ++ "\" block"
  | .strayCommentClose => "Unmatched block comment close \"]#\""
  | .unclosedComment => "Unclosed block comment"
  | .mismatchedBrackets paren square brace =>
    "Document has mismatched brackets: " ++ toString paren ++ " unclosed (), " ++
      toString square ++ " unclosed [], " ++ toString brace ++ " unclosed \x7b\x7d"

end Problem

/-- A problem and where it is. -/
structure Finding where
  range : Range
  problem : Problem
  deriving DecidableEq, Repr

/-- The diagnostic by which a source reports a finding. -/
def Finding.toDiagnostic (source : String) (f : Finding) : Diagnostic :=
  ⟨f.problem.severity, f.range, f.problem.message, source⟩

end Dragonstone
