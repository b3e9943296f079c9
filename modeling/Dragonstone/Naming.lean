/-
# Naming conventions

Types and modules have capitalised names, methods and functions do not, and a name that is assigned
without a keyword is written in capitals.  The checks read masked lines, and a finding covers the
name.
-/

import Dragonstone.Definition
import Dragonstone.Diagnostic

namespace Dragonstone.Naming

open Vocabulary

/-- A finding that covers `name`, which stands where `rest` begins. -/
def findingAt (n : Nat) (line rest name : Text) (problem : Problem) : Finding :=
  let column := line.length - rest.length
  ⟨Range.inLine n column (column + name.length), problem⟩

/-- A type or module whose name begins with a small letter. -/
def typeName? (n : Nat) (line : Line) : Option Finding := do
  let (keyword, rest) ← leadingKeyword? (typeKeywords ++ moduleKeywords)
    (Definition.afterAbstract line)
  let (name, _) ← identifier? Char.isLower rest
  return findingAt n line rest name (.lowercaseType keyword)

/-- A method or function whose name begins with a capital.  A capitalised word before a dot is a
receiver and not the name. -/
def callableName? (n : Nat) (line : Line) : Option Finding := do
  let (keyword, rest) ← leadingKeyword? (methodKeywords ++ functionKeywords) (skipBlanks line)
  let (name, after) ← identifier? Char.isUpper rest
  if after.head? == some '.' then none
  else return findingAt n line rest name (.capitalizedCallable keyword)

/-- Some equals sign of the text is a plain assignment: it is part of no comparison, arrow or
match.  `before` is the character in front of the text. -/
def assignsAfter (before : Option Char) : Text → Bool
  | [] => false
  | c :: rest =>
    let partOfLeft := before.any fun b => b == '=' || b == '!' || b == '<' || b == '>'
    let partOfRight := rest.head?.any fun d => d == '=' || d == '>' || d == '~'
    (c == '=' && !partOfLeft && !partOfRight) || assignsAfter (some c) rest

/-- The line holds a plain assignment. -/
def hasAssignment (line : Line) : Bool :=
  assignsAfter none line

/-- A capital letter followed by a small one begins the text. -/
def startsCapitalized : Text → Bool
  | c :: d :: _ => c.isUpper && d.isLower
  | _ => false

/-- A capitalised name at the front of a line with an assignment, outside enumerations. -/
def constantName? (n : Nat) (line : Line) (inEnum : Bool) : Option Finding :=
  let rest := skipBlanks line
  if !inEnum && startsCapitalized rest && hasAssignment line then
    some (findingAt n line rest (word rest) .mixedCaseConstant)
  else none

/-- The findings of the three checks on one line. -/
def check (n : Nat) (line : Line) (inEnum : Bool) : List Finding :=
  (typeName? n line).toList ++ (callableName? n line).toList ++
    (constantName? n line inEnum).toList

end Dragonstone.Naming
