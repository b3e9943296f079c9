/-
# The words of the language

The groups of keywords by which lines are recognised, and the marks of comments.
-/

import Dragonstone.Text

namespace Dragonstone.Vocabulary

def typeKeywords : List Text :=
  ["class", "cls", "struct", "record", "anno", "annotation", "enum"].map String.toList

/-- The type keyword whose members are exempt from the rule for constants. -/
def enumKeyword : Text := "enum".toList

def moduleKeywords : List Text :=
  ["module", "mod"].map String.toList

def methodKeywords : List Text :=
  ["def", "define"].map String.toList

def functionKeywords : List Text :=
  ["fun", "function"].map String.toList

def variableKeywords : List Text :=
  ["con", "let", "var", "fix"].map String.toList

/-- The lower-case types that a variable may be declared with. -/
def variableTypes : List Text :=
  ["str", "int", "bool", "char", "float", "nil"].map String.toList

def visibilityModifiers : List Text :=
  ["public", "private", "protected"].map String.toList

/-- Words that make a type abstract. -/
def abstractModifiers : List Text :=
  ["abstract", "abs"].map String.toList

def conditionalKeywords : List Text :=
  ["if", "unless", "case", "select"].map String.toList

def loopKeywords : List Text :=
  ["while"].map String.toList

/-- Words that open a block with handlers. -/
def exceptionKeywords : List Text :=
  ["begin"].map String.toList

def scopeKeywords : List Text :=
  ["with"].map String.toList

/-- Words that close one branch of a block and open the next one. -/
def branchKeywords : List Text :=
  ["elsif", "elseif", "else", "when", "rescue", "ensure"].map String.toList

/-- The word that closes a block. -/
def endKeyword : Text := "end".toList

/-- The word that opens a block anywhere on a line. -/
def doKeyword : Text := "do".toList

/-- Words that open a block at the start of a line. -/
def blockKeywords : List Text :=
  typeKeywords ++ moduleKeywords ++ methodKeywords ++ functionKeywords ++ conditionalKeywords ++
    loopKeywords ++ exceptionKeywords ++ scopeKeywords

def lineComment : Text := "#".toList

def commentOpen : Text := "#[".toList

def commentClose : Text := "]#".toList

/-- Characters after which an editor asks for completions. -/
def triggerCharacters : List Char :=
  ['.', ':', '@', '%', '$']

end Dragonstone.Vocabulary
