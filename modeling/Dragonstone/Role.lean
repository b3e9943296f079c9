/-
# Literals and line comments

One automaton reads a line and gives every character a role.  Three kinds of quotes open literals;
inside a literal the other two are ordinary characters.  A backslash takes the next character with
it, inside a literal and outside.  A number sign outside literals starts a comment that runs to the
end of the line.
-/

import Dragonstone.Text

namespace Dragonstone

inductive Quote where
  | double
  | single
  | backtick
  deriving DecidableEq, Repr

namespace Quote

def char : Quote → Char
  | .double => '\x22'
  | .single => '\x27'
  | .backtick => '\x60'

def all : List Quote :=
  [.double, .single, .backtick]

/-- The quote that a character is, if it is one. -/
def ofChar? (c : Char) : Option Quote :=
  all.find? fun q => q.char == c

/-- How messages name a quote. -/
def name : Quote → String
  | .double => "double quote (\x22)"
  | .single => "single quote (')"
  | .backtick => "backtick (`)"

/-- A quote is found from its character. -/
@[simp] theorem ofChar?_char (q : Quote) : ofChar? q.char = some q := by
  cases q <;> decide

end Quote

/-- How messages name a quotation mark; any other text stands for itself. -/
def quoteName (mark : Text) : String :=
  match mark with
  | [c] => ((Quote.ofChar? c).map Quote.name).getD (String.ofList mark)
  | _ => String.ofList mark

/-- What a character of a line is. -/
inductive Role where
  | code
  | quote
  | literal
  | comment
  deriving DecidableEq, Repr

/-- The role of a character that is neither a quote nor a comment. -/
def Role.inside (open? : Option Quote) : Role :=
  if open?.isSome then .literal else .code

/-- Roles of the rest of a line, and the quote left open at its end.  `open?` is the quote that is
open before it, and `escaped` tells whether a backslash stands before it. -/
def rolesFrom (open? : Option Quote) (escaped : Bool) : Line → List Role × Option Quote
  | [] => ([], open?)
  | c :: rest =>
    let plain (escaped' : Bool) :=
      let (roles, last) := rolesFrom open? escaped' rest
      (Role.inside open? :: roles, last)
    if escaped then plain false
    else if c == '\\' then plain true
    else if open?.isNone && c == '#' then (List.replicate (rest.length + 1) .comment, none)
    else
      match Quote.ofChar? c with
      | none => plain false
      | some q =>
        match open? with
        | none =>
          let (roles, last) := rolesFrom (some q) false rest
          (.quote :: roles, last)
        | some p =>
          if q == p then
            let (roles, last) := rolesFrom none false rest
            (.quote :: roles, last)
          else plain false

def roles (line : Line) : List Role :=
  (rolesFrom none false line).1

/-- The quote still open at the end of a line. -/
def unclosedQuote? (line : Line) : Option Quote :=
  (rolesFrom none false line).2

/-- A character as the mask shows it: the bodies of literals and comments become spaces. -/
def Role.masked (r : Role) (c : Char) : Char :=
  if r == .code || r == .quote then c else ' '

/-- The line with literal bodies and its comment blanked; every column is kept. -/
def mask (line : Line) : Line :=
  List.zipWith Role.masked (roles line) line

theorem length_rolesFrom (line : Line) (open? : Option Quote) (escaped : Bool) :
    (rolesFrom open? escaped line).1.length = line.length := by
  induction line generalizing open? escaped with
  | nil => rfl
  | cons c rest ih =>
    simp only [rolesFrom]
    split
    · simp [ih]
    split
    · simp [ih]
    split
    · simp
    split
    · simp [ih]
    · split
      · simp [ih]
      · split <;> simp [ih]

@[simp] theorem length_roles (line : Line) : (roles line).length = line.length :=
  length_rolesFrom line none false

/-- Masking keeps every column. -/
@[simp] theorem length_mask (line : Line) : (mask line).length = line.length := by
  simp [mask]

end Dragonstone
