/-
# Definitions

A line defines at most one thing.  The forms are tried in a fixed order, and the first that fits
wins: type, module, method, function, constant, variable.  The order matters only where two forms
fit the same line.

Each form is recognised from the front of the line: blanks, a keyword (a whole word followed by at
least one blank), a name, and what the form allows after it.  What follows is not looked at.
-/

import Dragonstone.Text.Word
import Dragonstone.Vocabulary

namespace Dragonstone

open Vocabulary

inductive Definition where
  | typeDecl (keyword name : Text)
  | moduleDecl (keyword name : Text)
  | methodDecl (keyword : Text) (receiver : Option Text) (name : Text) (params : Option Text)
  | functionDecl (keyword name : Text) (params : Option Text)
  | constantDecl (name : Text)
  | variableDecl (keyword name : Text) (typeName : Option Text)
  deriving DecidableEq, Repr

/-- A name with its receiver in front of it. -/
def qualified (receiver : Option Text) (name : Text) : Text :=
  match receiver with
  | some r => r ++ '.' :: name
  | none => name

namespace Definition

def name : Definition → Text
  | .typeDecl _ n => n
  | .moduleDecl _ n => n
  | .methodDecl _ r n _ => qualified r n
  | .functionDecl _ n _ => n
  | .constantDecl n => n
  | .variableDecl _ n _ => n

/-! ### Parts of a definition -/

/-- The line after its blanks and an optional modifier for abstract types. -/
def afterAbstract (line : Line) : Text :=
  let s := skipBlanks line
  match leadingKeyword? abstractModifiers s with
  | some (_, rest) => rest
  | none => s

/-- The text between parentheses that follow after optional blanks, if they are closed. -/
def params? (s : Text) : Option Text :=
  match skipBlanks s with
  | '(' :: inner => if inner.contains ')' then some (inner.takeWhile (· != ')')) else none
  | _ => none

/-- The type that a variable is declared with: a capitalised identifier, or one of the lower-case
types as soon as the text begins with it. -/
def declaredType? (s : Text) : Option Text :=
  match skipBlanks s with
  | ':' :: rest =>
    let t := skipBlanks rest
    match identifier? Char.isUpper t with
    | some (name, _) => some name
    | none => variableTypes.find? fun v => v.isPrefixOf t
  | _ => none

def isConstantChar (c : Char) : Bool :=
  c.isUpper || c == '_' || c.isDigit

/-- A character that begins the name of a function or variable. -/
def isLowerStart (c : Char) : Bool :=
  c.isLower || c == '_'

/-! ### The six forms -/

/-- A type: an optional modifier, a type keyword and a capitalised name. -/
def parseType? (line : Line) : Option Definition := do
  let (keyword, rest) ← leadingKeyword? typeKeywords (afterAbstract line)
  let (name, _) ← identifier? Char.isUpper rest
  return .typeDecl keyword name

def parseModule? (line : Line) : Option Definition := do
  let (keyword, rest) ← leadingKeyword? moduleKeywords (skipBlanks line)
  let (name, _) ← identifier? Char.isUpper rest
  return .moduleDecl keyword name

/-- The receiver before a dot, and the text after the dot. -/
def receiver? (s : Text) : Option (Text × Text) := do
  let (first, rest) ← identifier? isIdentStart s
  match rest with
  | '.' :: after => if (identifier? isIdentStart after).isSome then some (first, after) else none
  | _ => none

/-- A method: a method keyword, an optional receiver with a dot, a name and optional parameters. -/
def parseMethod? (line : Line) : Option Definition := do
  let (keyword, rest) ← leadingKeyword? methodKeywords (skipBlanks line)
  match receiver? rest with
  | some (receiver, own) =>
    let (name, after) ← markedName? isIdentStart own
    return .methodDecl keyword (some receiver) name (params? after)
  | none =>
    let (name, after) ← markedName? isIdentStart rest
    return .methodDecl keyword none name (params? after)

/-- A function: a function keyword, a lower-case name and optional parameters. -/
def parseFunction? (line : Line) : Option Definition := do
  let (keyword, rest) ← leadingKeyword? functionKeywords (skipBlanks line)
  let (name, after) ← markedName? isLowerStart rest
  return .functionDecl keyword name (params? after)

/-- A constant: a name of capitals, digits and underscores before an equals sign. -/
def parseConstant? (line : Line) : Option Definition :=
  let s := skipBlanks line
  match s with
  | [] => none
  | c :: _ =>
    if c.isUpper && opensWith '=' (s.dropWhile isConstantChar) then
      some (.constantDecl (s.takeWhile isConstantChar))
    else none

/-- A variable: a variable keyword, a lower-case name and an optional type. -/
def parseVariable? (line : Line) : Option Definition := do
  let (keyword, rest) ← leadingKeyword? variableKeywords (skipBlanks line)
  let (name, after) ← identifier? isLowerStart rest
  return .variableDecl keyword name (declaredType? after)

/-- What a line defines, if anything. -/
def ofLine? (line : Line) : Option Definition :=
  parseType? line <|> parseModule? line <|> parseMethod? line <|> parseFunction? line <|>
    parseConstant? line <|> parseVariable? line

end Definition

end Dragonstone
