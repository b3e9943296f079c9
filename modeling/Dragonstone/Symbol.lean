/-
# Symbols and the outline

Every definition of a document outside block comments is a symbol, listed in source order.
-/

import Dragonstone.Comment
import Dragonstone.Definition
import Dragonstone.Position
import Dragonstone.Text.Lines

namespace Dragonstone

inductive SymbolKind where
  | typeKind
  | enumKind
  | moduleKind
  | methodKind
  | functionKind
  | constantKind
  | variableKind
  deriving DecidableEq, Repr

def SymbolKind.label : SymbolKind → String
  | .typeKind => "type"
  | .enumKind => "enum"
  | .moduleKind => "module"
  | .methodKind => "method"
  | .functionKind => "function"
  | .constantKind => "constant"
  | .variableKind => "variable"

/-- A definition of a document. -/
structure Symbol where
  name : Text
  kind : SymbolKind
  line : Int
  range : Range
  /-- How the definition reads in one line; without one, the name is shown. -/
  detail : Option Text
  deriving DecidableEq, Repr

/-- What is shown for a symbol: its detail, or its name where there is none. -/
def Symbol.display (s : Symbol) : Text :=
  match s.detail with
  | some detail => if detail.isEmpty then s.name else detail
  | none => s.name

namespace Definition

def kind : Definition → SymbolKind
  | .typeDecl keyword _ =>
    if keyword == Vocabulary.enumKeyword then .enumKind else .typeKind
  | .moduleDecl .. => .moduleKind
  | .methodDecl .. => .methodKind
  | .functionDecl .. => .functionKind
  | .constantDecl .. => .constantKind
  | .variableDecl .. => .variableKind

/-- A head with a parameter list; an empty list reads like none. -/
def withParams (head : Text) : Option Text → Text
  | none => head
  | some params => if params.isEmpty then head else head ++ '(' :: params ++ [')']

/-- How a definition reads in one line. -/
def detail : Definition → Text
  | .typeDecl keyword name => keyword ++ ' ' :: name
  | .moduleDecl _ name => "module ".toList ++ name
  | .methodDecl _ receiver name params =>
    let label := if receiver.isSome then "singleton method " else "method "
    withParams (label.toList ++ qualified receiver name) params
  | .functionDecl _ name params => withParams ("fun ".toList ++ name) params
  | .constantDecl name => "constant ".toList ++ name
  | .variableDecl keyword name typeName =>
    let suffix := match typeName with
      | some t => ": ".toList ++ t
      | none => []
    keyword ++ ' ' :: name ++ suffix

/-- The symbol that a definition makes on its line, which it covers whole. -/
def toSymbol (d : Definition) (n : Nat) (line : Line) : Symbol :=
  ⟨d.name, d.kind, n, Range.wholeLine n line.length, some d.detail⟩

end Definition

/-- The symbols of the lines from line `n` on, where block comments are `depth` deep. -/
def outlineFrom (n : Nat) (depth : Int) : List Line → List Symbol
  | [] => []
  | line :: rest =>
    let scan := scanComments line depth
    let here := if scan.inComment then none else (Definition.ofLine? line).map (·.toSymbol n line)
    here.toList ++ outlineFrom (n + 1) scan.depth rest

/-- The symbols of a document in source order. -/
def outline (text : Text) : List Symbol :=
  outlineFrom 0 0 (lines text)

end Dragonstone
