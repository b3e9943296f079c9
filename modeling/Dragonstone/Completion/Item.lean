/-
# Completion items

What an editor offers at the cursor.
-/

import Dragonstone.Text

namespace Dragonstone.Completion

inductive ItemKind where
  | keyword
  | typeName
  | function
  | constant
  | method
  | moduleName
  | variableName
  | plainText
  deriving DecidableEq, Repr

def ItemKind.label : ItemKind → String
  | .keyword => "keyword"
  | .typeName => "class"
  | .function => "function"
  | .constant => "constant"
  | .method => "method"
  | .moduleName => "module"
  | .variableName => "variable"
  | .plainText => "text"

/-- A completion: what is shown, and what is inserted if that is something else. -/
structure Item where
  label : Text
  kind : ItemKind
  detail : Option Text := none
  insertText : Option Text := none
  /-- The inserted text is a snippet with tab stops. -/
  snippet : Bool := false
  deriving DecidableEq, Repr

end Dragonstone.Completion
