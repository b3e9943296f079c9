/-
# Words

Words of the language are runs of ASCII letters, digits and underscores.  Recognisers look at whole
runs only: a keyword is present where a maximal run spells it.
-/

import Dragonstone.Text

namespace Dragonstone

def isIdentStart (c : Char) : Bool :=
  c.isAlpha || c == '_'

def isWordChar (c : Char) : Bool :=
  c.isAlphanum || c == '_'

/-- The run of word characters at the front of the text. -/
def word (s : Text) : Text :=
  s.takeWhile isWordChar

def afterWord (s : Text) : Text :=
  s.dropWhile isWordChar

/-- No character is lost between a word and what follows it. -/
@[simp] theorem word_append_afterWord (s : Text) : word s ++ afterWord s = s :=
  List.takeWhile_append_dropWhile

/-- What follows a word is no longer than the text. -/
theorem length_afterWord_le (s : Text) : (afterWord s).length ≤ s.length :=
  (List.dropWhile_suffix isWordChar).length_le

/-- The suffixes of a text at which a maximal run of word characters begins.  The flag tells
whether the character before the text is itself a word character. -/
def wordStarts : Bool → Text → List Text
  | _, [] => []
  | inside, c :: rest =>
    if isWordChar c && !inside then (c :: rest) :: wordStarts true rest
    else wordStarts (isWordChar c) rest

/-- The words of a text from left to right, each with the text after it. -/
def words (s : Text) : List (Text × Text) :=
  (wordStarts false s).map fun t => (word t, afterWord t)

def hasWord (w : Text) (s : Text) : Bool :=
  (words s).any fun found => found.1 == w

/-- The next character after blanks is `c`. -/
def opensWith (c : Char) (s : Text) : Bool :=
  (skipBlanks s).head? == some c

/-- An identifier beginning with a character of the given class, and the text after it. -/
def identifier? (start : Char → Bool) (s : Text) : Option (Text × Text) :=
  match s with
  | [] => none
  | c :: _ => if start c then some (word s, afterWord s) else none

/-- Characters that may end the name of a method or function. -/
def isNameMark (c : Char) : Bool :=
  c == '?' || c == '!' || c == '='

/-- The identifier with the mark that may end it. -/
def markedName? (start : Char → Bool) (s : Text) : Option (Text × Text) :=
  (identifier? start s).map fun (name, rest) =>
    match rest with
    | c :: after => if isNameMark c then (name ++ [c], after) else (name, rest)
    | [] => (name, rest)

/-- A word of the list followed by at least one blank; gives the word and the text after the
blanks. -/
def leadingKeyword? (keywords : List Text) (s : Text) : Option (Text × Text) :=
  if keywords.contains (word s) then (afterGap? (afterWord s)).map fun rest => (word s, rest)
  else none

end Dragonstone
