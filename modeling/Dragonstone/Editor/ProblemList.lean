/-
# The list of problems

The panel shows the diagnostics of the current document in the order in which they start, one row
each.  A filter hides rows but does not change the counts.
-/

import Dragonstone.Diagnostic

namespace Dragonstone.Editor

inductive ProblemFilter where
  | all
  | errors
  | warnings
  deriving DecidableEq, Repr

namespace ProblemFilter

def list : List ProblemFilter :=
  [.all, .errors, .warnings]

def name : ProblemFilter → String
  | .all => "All"
  | .errors => "Errors"
  | .warnings => "Warnings"

def ofName? (name : String) : Option ProblemFilter :=
  list.find? fun f => f.name == name

def shows : ProblemFilter → Severity → Bool
  | .all, _ => true
  | .errors, s => s == .error
  | .warnings, s => s == .warning

end ProblemFilter

structure ProblemList where
  /-- The diagnostics in the order in which they start. -/
  diagnostics : List Diagnostic := []
  filter : ProblemFilter := .all
  /-- The row that was clicked. -/
  current : Option Nat := none
  deriving DecidableEq, Repr

/-- The text of a diagnostic's row, with line and column counted from one. -/
def diagnosticRow (d : Diagnostic) : String :=
  "L" ++ toString (d.range.start.line + 1) ++ ":" ++ toString (d.range.start.character + 1) ++ " " ++
    d.severity.label ++ ": " ++ d.message

namespace ProblemList

/-- The diagnostics are replaced; equal starts keep their order. -/
def display (p : ProblemList) (found : List Diagnostic) : ProblemList :=
  { p with
    diagnostics := found.mergeSort fun a b => !b.range.start.before a.range.start
    current := none }

/-- Another filter is chosen.  A name that no filter has changes nothing, and so does the filter
that is chosen already. -/
def choose (p : ProblemList) (name : String) : ProblemList :=
  match ProblemFilter.ofName? name with
  | some f => if f = p.filter then p else { p with filter := f, current := none }
  | none => p

/-- The diagnostics that have a row. -/
def shown (p : ProblemList) : List Diagnostic :=
  p.diagnostics.filter fun d => p.filter.shows d.severity

def rows (p : ProblemList) : List String :=
  p.shown.map diagnosticRow

/-- How many diagnostics there are, shown or not. -/
def summary (p : ProblemList) : String :=
  let errors := p.diagnostics.countP fun d => d.severity == .error
  toString errors ++ " errors, " ++ toString (p.diagnostics.length - errors) ++ " warnings"

/-- The place of the row that was clicked. -/
def selected? (p : ProblemList) : Option Position :=
  (p.current.bind fun row => p.shown[row]?).map fun d => d.range.start

def click (p : ProblemList) (row : Nat) : ProblemList :=
  if row < p.shown.length then { p with current := some row } else p

end ProblemList

end Dragonstone.Editor
