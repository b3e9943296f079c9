/-
# Options of an analysis

The options that every analysis takes, with their defaults.
-/

namespace Dragonstone

/-- What an analysis reports, and how wide one level of indentation is. -/
structure Config where
  indentWidth : Nat := 4
  source : String := "dragonstone"
  checkNaming : Bool := true
  checkBrackets : Bool := true
  reportCommentNesting : Bool := true
  deriving DecidableEq, Repr, Inhabited

/-- A configuration that can be in force: indentation is visible and the source has a name. -/
def Config.Valid (c : Config) : Prop :=
  1 ≤ c.indentWidth ∧ c.source ≠ ""

end Dragonstone
