/-
# Highlighting

Every character of a line gets a category or none.  Words of the vocabulary and numbers are found by
rules, of which later ones win; literals and line comments win over all rules.  A line that is
touched by a block comment is comment as a whole.
-/

import Dragonstone.Comment
import Dragonstone.Role
import Dragonstone.Text.Spans
import Dragonstone.Text.Word
import Dragonstone.Vocabulary.Entries

namespace Dragonstone.Editor

inductive Category where
  | keyword
  | typeName
  | builtin
  | constant
  | number
  | string
  | comment
  deriving DecidableEq, Repr

namespace Category

def all : List Category :=
  [.keyword, .typeName, .builtin, .constant, .number, .string, .comment]

def label : Category → String
  | .keyword => "keyword"
  | .typeName => "type"
  | .builtin => "builtin"
  | .constant => "constant"
  | .number => "number"
  | .string => "string"
  | .comment => "comment"

end Category

/-- A rule tells how many characters it takes at the front of a text that no word character
precedes. -/
abbrev Rule := Text → Option Nat

/-- A word ends here: what follows can neither continue it nor mark it. -/
def endsWord : Text → Bool
  | [] => true
  | c :: _ => !(isWordChar c || c == '!' || c == '?')

/-- The longest of some words that stands at the front of a text as a whole. -/
def wordRule (vocabulary : List Text) : Rule := fun s =>
  ((vocabulary.filter fun w => w.isPrefixOf s && endsWord (s.drop w.length)).map List.length).max?

/-- A text of ASCII digits only. -/
def isNumeral (s : Text) : Bool :=
  !s.isEmpty && s.all Char.isDigit

/-- A number: digits, and a fraction if it consists of digits too. -/
def numberRule : Rule := fun s =>
  let whole := word s
  if isNumeral whole then
    match afterWord s with
    | '.' :: rest =>
      if isNumeral (word rest) then some (whole.length + 1 + (word rest).length)
      else some whole.length
    | _ => some whole.length
  else none

/-- The characters that a rule takes, from left to right.  `inside` tells whether a word character
stands before the text, and `skip` how many of its characters are taken already. -/
def takenBy (rule : Rule) (inside : Bool) (skip : Nat) : Text → List Bool
  | [] => []
  | c :: rest =>
    match skip with
    | k + 1 => true :: takenBy rule (isWordChar c) k rest
    | 0 =>
      match if inside then none else rule (c :: rest) with
      | some (n + 1) => true :: takenBy rule (isWordChar c) n rest
      | _ => false :: takenBy rule (isWordChar c) 0 rest

/-- The rules with their categories; the last one that takes a character counts. -/
def rules : List (Rule × Category) :=
  let words (entries : List Completion.Item) := wordRule (entries.map Completion.Item.label)
  [(words Vocabulary.keywordEntries, .keyword), (words Vocabulary.typeEntries, .typeName),
    (words Vocabulary.builtinEntries, .builtin), (words Vocabulary.constantEntries, .constant),
    (numberRule, .number)]

/-- One rule applied over the categories so far. -/
def paint (line : Line) (painted : List (Option Category)) (rule : Rule × Category) :
    List (Option Category) :=
  List.zipWith (fun old taken => if taken then some rule.2 else old) painted
    (takenBy rule.1 false 0 line)

/-- Literals and comments win over what the rules say. -/
def overrule (role : Role) (painted : Option Category) : Option Category :=
  match role with
  | .code => painted
  | .quote => some .string
  | .literal => some .string
  | .comment => some .comment

/-- The categories of a line outside block comments. -/
def codeCategories (line : Line) : List (Option Category) :=
  List.zipWith overrule (roles line) (rules.foldl (paint line) (List.replicate line.length none))

/-- The categories of lines that begin with block comments `depth` deep, and the depth after each
line. -/
def highlight (depth : Int) : List Line → List (Int × List (Option Category))
  | [] => []
  | line :: rest =>
    let scan := scanComments line depth
    let categories :=
      if 0 < depth || scan.inComment then List.replicate line.length (some Category.comment)
      else codeCategories line
    (scan.depth, categories) :: highlight scan.depth rest

end Dragonstone.Editor
