/-
# The completions of what is typed

The word being typed ends at the cursor.  Of the candidates that begin with it, the first of each
label is kept, and labels are listed in alphabetical order, small letters and capitals together.
-/

import Dragonstone.Completion.Item
import Dragonstone.Text.Alphanumeric
import Dragonstone.Text.Lowercase
import Dragonstone.Text.Word

namespace Dragonstone.Completion

def withoutFinalFeed (s : Text) : Text :=
  if s.getLast? == some '\n' then s.dropLast else s

def isTypedMark (c : Char) : Bool :=
  c == '?' || c == '!'

/-- The longest word that ends with the text and begins like an identifier. -/
def typedStem (s : Text) : Text :=
  ((s.reverse.takeWhile isProseWordChar).reverse).dropWhile fun c => !isIdentStart c

/-- The word being typed at the end of a text, with the mark that may end it. -/
def typedPrefix (before : Text) : Text :=
  let line := withoutFinalFeed before
  match line.getLast? with
  | none => []
  | some c =>
    if isTypedMark c then
      let stem := typedStem line.dropLast
      if stem.isEmpty then [] else stem ++ [c]
    else typedStem line

/-- The first item of every label. -/
def firstOfLabels : List Item → List Item
  | [] => []
  | item :: rest => item :: (firstOfLabels rest).filter fun other => other.label != item.label

/-- The order of a list of completions: by label in small letters, then by label. -/
def Item.listedBefore (a b : Item) : Bool :=
  let la := lowercase a.label
  let lb := lowercase b.label
  precedes la lb || (la == lb && !precedes b.label a.label)

/-- The candidates that complete a typed word. -/
def filter (candidates : List Item) (typed : Text) : List Item :=
  (firstOfLabels (candidates.filter fun item => typed.isPrefixOf item.label)).mergeSort
    Item.listedBefore

end Dragonstone.Completion
