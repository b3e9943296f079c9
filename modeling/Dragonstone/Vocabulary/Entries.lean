/-
# The entries of the vocabulary

The words that are offered as completions, in the order in which they are offered, each with its
one-line help.
-/

import Dragonstone.Completion.Item

namespace Dragonstone.Vocabulary

open Completion

def entry (kind : ItemKind) (label detail : String) : Item :=
  { label := label.toList, kind := kind, detail := some detail.toList }

/-- A word with its help that is completed by a snippet. -/
def snippetEntry (kind : ItemKind) (label detail body : String) : Item :=
  { entry kind label detail with insertText := some body.toList, snippet := true }

def keywordEntries : List Item := [
  entry .keyword "class" "Define a class",
  entry .keyword "cls" "Define a class (short)",
  entry .keyword "struct" "Define a struct",
  entry .keyword "module" "Define a module",
  entry .keyword "mod" "Define a module (short)",
  entry .keyword "enum" "Define an enum",
  entry .keyword "record" "Define a record",
  entry .keyword "annotation" "Define an annotation",
  entry .keyword "anno" "Define an annotation (short)",
  snippetEntry .keyword "def" "Define a method"
    "def $\x7b1:method_name\x7d($2)\n    $0\nend",
  snippetEntry .keyword "define" "Define a method"
    "define $\x7b1:method_name\x7d($2)\n    $0\nend",
  snippetEntry .keyword "fun" "Define a function"
    "fun $\x7b1:function_name\x7d($2) -> $\x7b3:return_type\x7d\n    $0\nend",
  snippetEntry .keyword "function" "Define a function"
    "function $\x7b1:function_name\x7d($2) -> $\x7b3:return_type\x7d\n    $0\nend",
  snippetEntry .keyword "if" "Conditional statement"
    "if $\x7b1:condition\x7d\n    $0\nend",
  snippetEntry .keyword "unless" "Negative conditional"
    "unless $\x7b1:condition\x7d\n    $0\nend",
  entry .keyword "elsif" "Else if clause",
  entry .keyword "elseif" "Else if clause",
  entry .keyword "else" "Else clause",
  snippetEntry .keyword "case" "Case statement"
    "case $\x7b1:value\x7d\nwhen $\x7b2:pattern\x7d\n    $0\nend",
  snippetEntry .keyword "select" "Select statement"
    "select $\x7b1:value\x7d\nwhen $\x7b2:pattern\x7d\n    $0\nend",
  entry .keyword "when" "When clause",
  snippetEntry .keyword "while" "While loop"
    "while $\x7b1:condition\x7d\n    $0\nend",
  snippetEntry .keyword "begin" "Begin block"
    "begin\n    $0\nend",
  entry .keyword "rescue" "Rescue clause",
  entry .keyword "ensure" "Ensure clause",
  entry .keyword "end" "End block",
  entry .keyword "return" "Return statement",
  entry .keyword "yield" "Yield to block",
  entry .keyword "break" "Break loop",
  entry .keyword "next" "Next iteration",
  entry .keyword "con" "Define a constant variable",
  entry .keyword "let" "Define an immutable variable",
  entry .keyword "var" "Define a mutable variable",
  entry .keyword "fix" "Define a fixed variable",
  entry .keyword "use" "Import/use module",
  entry .keyword "from" "Import from module",
  entry .keyword "as" "Alias import",
  entry .keyword "abstract" "Abstract modifier",
  entry .keyword "abs" "Abstract modifier (short)",
  entry .keyword "public" "Public visibility",
  entry .keyword "private" "Private visibility",
  entry .keyword "protected" "Protected visibility",
  snippetEntry .keyword "with" "With statement"
    "with $\x7b1:expression\x7d\n    $0\nend"
]

def typeEntries : List Item := [
  entry .typeName "str" "String type",
  entry .typeName "int" "Integer type",
  entry .typeName "int8" "8-bit integer",
  entry .typeName "int16" "16-bit integer",
  entry .typeName "int32" "32-bit integer",
  entry .typeName "int64" "64-bit integer",
  entry .typeName "int128" "128-bit integer",
  entry .typeName "float" "Float type",
  entry .typeName "float8" "8-bit float",
  entry .typeName "float16" "16-bit float",
  entry .typeName "float32" "32-bit float",
  entry .typeName "float64" "64-bit float",
  entry .typeName "float128" "128-bit float",
  entry .typeName "bool" "Boolean type",
  entry .typeName "char" "Character type",
  entry .typeName "nil" "Nil type",
  entry .typeName "sym" "Symbol type",
  entry .typeName "arr" "Array type",
  entry .typeName "array" "Array type",
  entry .typeName "map" "Map/Hash type",
  entry .typeName "range" "Range type",
  entry .typeName "tuple" "Tuple type",
  entry .typeName "para" "Parameter type"
]

/-- The functions of the language. -/
def builtinEntries : List Item := [
  entry .function "echo" "Print to stdout",
  entry .function "eecho" "Print to stderr",
  entry .function "e!" "Print to stdout (short)",
  entry .function "ee!" "Print to stderr (short)",
  entry .function "abort" "Abort execution",
  entry .function "exit" "Exit program",
  entry .function "gets" "Get input",
  entry .function "read_line" "Read line from input",
  entry .function "sleep" "Sleep for duration",
  entry .function "spawn" "Spawn fiber/thread",
  entry .function "thread" "Create thread",
  entry .function "channel" "Create channel",
  entry .function "fiber" "Create fiber",
  entry .function "raise" "Raise exception",
  entry .function "rand" "Random number",
  entry .function "sprintf" "Format string",
  entry .function "system" "Execute system command",
  entry .function "typeof" "Get type of value"
]

def constantEntries : List Item := [
  entry .constant "true" "Boolean true",
  entry .constant "false" "Boolean false",
  entry .constant "nil" "Nil value",
  entry .constant "null" "Null value",
  entry .constant "self" "Current instance",
  entry .constant "__FILE__" "Current file path",
  entry .constant "__DIR__" "Current directory",
  entry .constant "__LINE__" "Current line number",
  entry .constant "__END_LINE__" "End line number"
]

/-- The methods that are written like keywords. -/
def specialMethodEntries : List Item := [
  entry .method "getter" "Define getter method",
  entry .method "setter" "Define setter method",
  entry .method "property" "Define property",
  snippetEntry .method "bag" "Create bag type" "bag($0)",
  snippetEntry .method "para" "Define parameter" "para($0)"
]

/-- The help for a word, empty if it is unknown.  A word that several groups list is looked up among
keywords, functions, constants, methods and types, in this order. -/
def help (word : Text) : Text :=
  let all := keywordEntries ++ builtinEntries ++ constantEntries ++ specialMethodEntries ++
    typeEntries
  ((all.find? fun item => item.label == word).bind Item.detail).getD []

/-- The keywords in alphabetical order. -/
def sortedKeywords : List Text :=
  (keywordEntries.map Item.label).mergeSort fun a b => !precedes b a

end Dragonstone.Vocabulary
