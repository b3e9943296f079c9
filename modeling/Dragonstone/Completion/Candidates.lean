/-
# Completion candidates

What can be completed at a position: the vocabulary of the language and the symbols of the document.
Types are offered only where one is expected.  The candidates are neither sorted nor filtered.
-/

import Dragonstone.Symbol
import Dragonstone.Text.Alphanumeric
import Dragonstone.Text.Slice
import Dragonstone.Vocabulary.Entries

namespace Dragonstone.Completion

def ItemKind.ofSymbol : SymbolKind → ItemKind
  | .typeKind => .typeName
  | .enumKind => .typeName
  | .moduleKind => .moduleName
  | .methodKind => .method
  | .functionKind => .function
  | .constantKind => .constant
  | .variableKind => .variableName

def Item.ofSymbol (symbol : Symbol) : Item :=
  { label := symbol.name, kind := .ofSymbol symbol.kind, detail := symbol.detail }

/-- The text of the position's line up to the position.  A negative character counts from the end of
the line. -/
def linePrefix (text : Text) (p : Position) : Text :=
  if p.line < 0 then []
  else
    match (lines text)[p.line.toNat]? with
    | some line => upTo p.character line
    | none => []

/-- A type is expected: the text ends with a colon or an arrow, perhaps followed by spaces and by the
beginning of a word. -/
def wantsTypes (before : Text) : Bool :=
  match (before.reverse.dropWhile isProseWordChar).dropWhile isSpace with
  | ':' :: _ => true
  | '>' :: '-' :: _ => true
  | _ => false

/-- The candidates at a position of a document. -/
def candidates (text : Text) (p : Position) : List Item :=
  let types := if wantsTypes (linePrefix text p) then Vocabulary.typeEntries else []
  Vocabulary.keywordEntries ++ Vocabulary.builtinEntries ++ Vocabulary.constantEntries ++
    Vocabulary.specialMethodEntries ++ types ++ (outline text).map Item.ofSymbol

end Dragonstone.Completion
