/-
# Looking up the word at a position

A line is cut into identifiers from the left, each with the mark that may end it.  A position
touches an identifier also at its end, and of two that it touches the left one counts.  The word is
then looked up among the symbols of the document, in source order.
-/

import Dragonstone.Symbol
import Dragonstone.Text.Word

namespace Dragonstone.Lookup

/-- The identifiers of a text as pairs of columns.  `col` is the column of the text, and `skip` tells
how many of its characters belong to the identifier before. -/
def identifierSpans (col skip : Nat) : Text → List (Nat × Nat)
  | [] => []
  | c :: rest =>
    match skip with
    | k + 1 => identifierSpans (col + 1) k rest
    | 0 =>
      match markedName? isIdentStart (c :: rest) with
      | some (name, _) =>
        (col, col + name.length) :: identifierSpans (col + 1) (name.length - 1) rest
      | none => identifierSpans (col + 1) 0 rest

/-- The first identifier of a line that the column touches. -/
def wordAt? (line : Line) (character : Int) : Option (Nat × Nat) :=
  (identifierSpans 0 0 line).find? fun (start, stop) => start ≤ character && character ≤ stop

def between (line : Line) (start stop : Nat) : Text :=
  (line.take stop).drop start

/-- A symbol answers to its name, to its name without receiver, and to its name without the mark
that ends it. -/
def answersTo (symbol : Symbol) (word : Text) : Bool :=
  symbol.name == word || ('.' :: word).isSuffixOf symbol.name ||
    ['?', '!', '='].any fun mark => symbol.name == word ++ [mark]

/-- The first symbol that answers to a word. -/
def find? (symbols : List Symbol) (word : Text) : Option Symbol :=
  symbols.find? fun symbol => answersTo symbol word

/-- The word at a position of a document and the range it covers. -/
def wordIn? (text : Text) (p : Position) : Option (Text × Range) := do
  let ls := lines text
  let line ← if 0 ≤ p.line then ls[p.line.toNat]? else none
  let (start, stop) ← wordAt? line p.character
  return (between line start stop, ⟨⟨p.line, start⟩, ⟨p.line, stop⟩⟩)

/-- The symbol that the word at a position means. -/
def symbolAt? (text : Text) (p : Position) : Option Symbol :=
  (wordIn? text p).bind fun (word, _) => find? (outline text) word

structure Hover where
  contents : Text
  range : Option Range
  deriving DecidableEq, Repr

/-- The markdown that is shown about a symbol. -/
def hoverText (symbol : Symbol) : Text :=
  "```dragonstone\n".toList ++ symbol.display ++ "\n```\nDefined at line ".toList ++
    (toString (symbol.line + 1)).toList

/-- What is shown about the word at a position, if it means a symbol. -/
def hover? (text : Text) (p : Position) : Option Hover := do
  let (word, range) ← wordIn? text p
  let symbol ← find? (outline text) word
  return ⟨hoverText symbol, some range⟩

/-- A place in a document that is known by its uri. -/
structure Location where
  uri : String
  range : Range
  deriving DecidableEq, Repr

/-- Where the word at a position is defined. -/
def definition? (uri : String) (text : Text) (p : Position) : Option Location :=
  (symbolAt? text p).map fun symbol => ⟨uri, symbol.range⟩

end Dragonstone.Lookup
