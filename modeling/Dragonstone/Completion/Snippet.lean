/-
# Snippets

A snippet is a text with numbered tab stops.  A stop is a dollar sign with a number, or with a
number in braces, after which a colon and a default text may stand; the default ends at the first
closing brace.  Expanding a snippet puts every default in the place of its stop and the cursor at
the last stop that is written as a bare zero.
-/

import Dragonstone.Completion.Item
import Dragonstone.Text.DecimalDigit

namespace Dragonstone.Completion

structure TabStop where
  /-- The stop as it is written. -/
  written : Text
  /-- The text that takes the place of the stop. -/
  default : Text := []
  deriving DecidableEq, Repr

/-- The stop that marks where the cursor goes. -/
def TabStop.isFinal (stop : TabStop) : Bool :=
  stop.written == ['$', '0']

/-- The number at the front of a text, and the text after it. -/
def stopNumber? (s : Text) : Option (Text × Text) :=
  let digits := s.takeWhile isDecimalDigit
  if digits.isEmpty then none else some (digits, s.dropWhile isDecimalDigit)

/-- What follows the number of a stop in braces. -/
def bracedStop? (opening digits : Text) : Text → Option TabStop
  | '\x7d' :: _ => some ⟨opening ++ digits ++ ['\x7d'], []⟩
  | ':' :: body =>
    let default := body.takeWhile (· != '\x7d')
    if default.length < body.length then
      some ⟨opening ++ digits ++ ':' :: default ++ ['\x7d'], default⟩
    else none
  | _ => none

/-- The tab stop at the front of a text. -/
def tabStop? : Text → Option TabStop
  | '$' :: '\x7b' :: rest =>
    (stopNumber? rest).bind fun (digits, after) => bracedStop? ['$', '\x7b'] digits after
  | '$' :: rest => (stopNumber? rest).map fun (digits, _) => ⟨'$' :: digits, []⟩
  | _ => none

inductive Piece where
  | char (c : Char)
  | stop (stop : TabStop)
  deriving DecidableEq, Repr

namespace Piece

/-- What a part reads like once it is expanded. -/
def plain : Piece → Text
  | .char c => [c]
  | .stop s => s.default

def isFinal : Piece → Bool
  | .char _ => false
  | .stop s => s.isFinal

end Piece

/-- The parts of a text; `skip` tells how many of its characters belong to the stop before. -/
def piecesFrom (skip : Nat) : Text → List Piece
  | [] => []
  | c :: rest =>
    match skip with
    | k + 1 => piecesFrom k rest
    | 0 =>
      match tabStop? (c :: rest) with
      | some s => .stop s :: piecesFrom (s.written.length - 1) rest
      | none => .char c :: piecesFrom 0 rest

def pieces (snippet : Text) : List Piece :=
  piecesFrom 0 snippet

/-- The text of a snippet with defaults in the place of stops. -/
def plainText (snippet : Text) : Text :=
  (pieces snippet).flatMap Piece.plain

/-- The offset of the last final stop, when the first part stands at `offset`. -/
def finalOffset? (offset : Nat) : List Piece → Option Nat
  | [] => none
  | p :: rest =>
    (finalOffset? (offset + p.plain.length) rest).or (if p.isFinal then some offset else none)

/-- Where the cursor goes in the expanded snippet: to the final stop, or to the end. -/
def cursorOffset (snippet : Text) : Nat :=
  (finalOffset? 0 (pieces snippet)).getD (plainText snippet).length

/-- The text that an item inserts and where the cursor goes in it.  An empty text to insert counts
as none, and the label is inserted. -/
def Item.insertion (item : Item) : Text × Nat :=
  let text := match item.insertText with
    | some t => if t.isEmpty then item.label else t
    | none => item.label
  if item.snippet then (plainText text, cursorOffset text) else (text, text.length)

end Dragonstone.Completion
