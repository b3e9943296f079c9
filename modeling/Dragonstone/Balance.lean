/-
# Bracket balance

Brackets are counted over the whole document, after comments are dropped and literals reduced to
their quotes.  Two idioms of the language unbalance a document that is in order, so a document that
uses one of them is not checked.
-/

import Dragonstone.Diagnostic
import Dragonstone.Text.Word

namespace Dragonstone.Balance

/-- What a scan of the document is inside of. -/
inductive Mode where
  | code
  /-- A block comment within `outer` others. -/
  | blockComment (outer : Nat)
  | lineComment
  | literal (quote : Quote)
  deriving DecidableEq, Repr

def Mode.afterClose : Nat → Mode
  | 0 => .code
  | outer + 1 => .blockComment outer

/-- The text without comments and bodies of literals, read in the given mode.  In a literal a
backslash drops the character after it too.  A line comment leaves its line feed; a block comment
leaves nothing. -/
def stripFrom : Mode → Text → Text
  | _, [] => []
  | .lineComment, c :: rest =>
    if c == '\n' then c :: stripFrom .code rest else stripFrom .lineComment rest
  | .literal _, ['\\'] => []
  | .literal q, '\\' :: _ :: rest => stripFrom (.literal q) rest
  | .literal q, c :: rest =>
    if c == q.char then c :: stripFrom .code rest else stripFrom (.literal q) rest
  | .blockComment n, '#' :: '[' :: rest => stripFrom (.blockComment (n + 1)) rest
  | .blockComment n, ']' :: '#' :: rest => stripFrom (.afterClose n) rest
  | .blockComment n, _ :: rest => stripFrom (.blockComment n) rest
  | .code, '#' :: '[' :: rest => stripFrom (.blockComment 0) rest
  | .code, ']' :: '#' :: rest => stripFrom .code rest
  | .code, c :: rest =>
    if c == '#' then stripFrom .lineComment rest
    else
      match Quote.ofChar? c with
      | some q => c :: stripFrom (.literal q) rest
      | none => c :: stripFrom .code rest

/-- The text without comments, every literal reduced to its quotes. -/
def strip (text : Text) : Text :=
  stripFrom .code text

/-- An arrow stands somewhere in the text. -/
def hasArrow : Text → Bool
  | '-' :: '>' :: _ => true
  | [] => false
  | _ :: rest => hasArrow rest

/-- The word `as` stands before a square bracket. -/
def hasBracketedAlias (s : Text) : Bool :=
  (words s).any fun (w, rest) => w == "as".toList && opensWith '[' rest

/-- The stripped text uses an idiom that unbalances its brackets without being wrong. -/
def hasBenignIdiom (stripped : Text) : Bool :=
  hasArrow stripped || hasBracketedAlias stripped

/-- How many more times one character occurs than another. -/
def surplus (opening closing : Char) (s : Text) : Int :=
  s.count opening - s.count closing

/-- The surplus of openings for the three kinds of brackets. -/
structure Surplus where
  paren : Int
  square : Int
  brace : Int
  deriving DecidableEq, Repr

/-- The surplus of each kind of bracket in a text. -/
def Surplus.of (s : Text) : Surplus :=
  ⟨surplus '(' ')' s, surplus '[' ']' s, surplus '{' '}' s⟩

/-- One finding on the first line if brackets do not balance. -/
def check (text : Text) (lines : List Line) : Option Finding :=
  let stripped := strip text
  let found := Surplus.of stripped
  if hasBenignIdiom stripped || found = ⟨0, 0, 0⟩ then none
  else
    some ⟨Range.wholeLine 0 (lines.headD []).length,
      .mismatchedBrackets found.paren found.square found.brace⟩

end Dragonstone.Balance
