/-
# Starting the editor

The command line of the editor.  Options that it does not know are left to the toolkit.
-/

import Dragonstone.CommandLine.Options
import Dragonstone.Files.Path
import Dragonstone.Log

namespace Dragonstone.CommandLine

structure EditorArguments where
  files : List Path
  /-- The log level, or none where its value was dropped. -/
  logLevel : Option LogLevel
  /-- Arguments for the toolkit. -/
  rest : List String
  deriving DecidableEq, Repr

/-- The command line of the editor, of which the log level is the only setting. -/
def editorGrammar : Grammar (Option LogLevel) where
  options := [
    helpOption,
    valueOption "--log-level" LogLevel.ofChoice? fun level _ => level]
  positionals := .any

def readEditorArguments (args : List String) : Except Stop EditorArguments := do
  let r ← editorGrammar.readKnown (some .warning) args
  return ⟨r.positionals.map Path.ofString, r.settings, r.leftOver⟩

end Dragonstone.CommandLine
