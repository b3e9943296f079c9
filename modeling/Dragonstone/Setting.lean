/-
# Settings

Options come from clients as values of any shape.  A message that rejects one shows it literally.
-/

import Dragonstone.Decimal.Shortest
import Dragonstone.Text.Quoted

namespace Dragonstone

/-- A value as a client sends it. -/
inductive Setting where
  | null
  | flag (value : Bool)
  | int (value : Int)
  | real (value : Float)
  | text (value : String)
  | list (items : List Setting)
  | object (fields : List (String × Setting))
  deriving Inhabited

namespace Setting

/-- A value that says nothing: null, false, zero, or empty. -/
def isBlank : Setting → Bool
  | .null => true
  | .flag b => !b
  | .int n => n == 0
  | .real x => x == 0
  | .text s => s.isEmpty
  | .list items => items.isEmpty
  | .object fields => fields.isEmpty

/-- How messages name the shape of a value. -/
def shape : Setting → String
  | .null => "NoneType"
  | .flag _ => "bool"
  | .int _ => "int"
  | .real _ => "float"
  | .text _ => "str"
  | .list _ => "list"
  | .object _ => "dict"

mutual

/-- How messages show a value. -/
def literal : Setting → List Char
  | .null => "None".toList
  | .flag true => "True".toList
  | .flag false => "False".toList
  | .int n => (toString n).toList
  | .real x => Decimal.ofFloat x
  | .text s => Quoted.encode s.toList
  | .list items => '[' :: literalItems items ++ [']']
  | .object fields => '\x7b' :: literalFields fields ++ ['\x7d']

/-- The items of a list, with commas between them. -/
def literalItems : List Setting → List Char
  | [] => []
  | [item] => literal item
  | item :: next :: rest => literal item ++ ',' :: ' ' :: literalItems (next :: rest)

/-- The fields of an object, with commas between them. -/
def literalFields : List (String × Setting) → List Char
  | [] => []
  | [(key, value)] => Quoted.encode key.toList ++ ':' :: ' ' :: literal value
  | (key, value) :: next :: rest =>
    Quoted.encode key.toList ++ ':' :: ' ' :: literal value ++
      ',' :: ' ' :: literalFields (next :: rest)

end

/-- An integer, or the empty list where there is none. -/
def ofInt? : Option Int → Setting
  | some n => .int n
  | none => .list []

def shown (s : Setting) : String :=
  String.ofList s.literal

def field? (key : String) : List (String × Setting) → Option Setting
  | [] => none
  | (k, v) :: rest => (field? key rest).or (if k == key then some v else none)

end Setting

end Dragonstone
