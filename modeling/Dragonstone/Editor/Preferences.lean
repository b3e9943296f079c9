/-
# Preferences

What the editor remembers between runs, under string keys.  The options of the analyzer are kept
under their client names; values that do not make a configuration are ignored as a whole.
-/

import Dragonstone.Config.Merge
import Dragonstone.KeyMap

namespace Dragonstone.Editor

/-- Remembered values under their keys. -/
abbrev Preferences := KeyMap Setting

namespace Preferences

def analyzerKey (f : ConfigField) : String :=
  "analyzer/" ++ f.clientName

def analyzerOptions (p : Preferences) : List (String × Setting) :=
  ConfigField.all.filterMap fun f => (p.get? (analyzerKey f)).map fun value => (f.clientName, value)

/-- The remembered configuration, or why it is no configuration. -/
def config (p : Preferences) : Except ConfigError Config :=
  Config.ofOptions (.object p.analyzerOptions)

/-- A warning about a remembered configuration that is not used. -/
def configWarning (e : ConfigError) : String :=
  "ignoring stored analyzer settings: " ++ e.message

/-- The configuration to start with, which is the default one where the remembered one is faulty. -/
def startConfig (p : Preferences) : Config :=
  match p.config with
  | .ok c => c
  | .error _ => {}

/-- The warnings about the configuration to start with. -/
def startWarnings (p : Preferences) : List String :=
  match p.config with
  | .ok _ => []
  | .error e => [configWarning e]

def putConfig (p : Preferences) (c : Config) : Preferences :=
  ConfigField.all.foldl (fun kept f => kept.put (analyzerKey f) (c.setting f)) p

/-- The key of the file that was opened or saved last. -/
def lastFileKey : String := "last_opened"

def lastFile? (p : Preferences) : Option String :=
  match p.get? lastFileKey with
  | some (.text s) => if s.isEmpty then none else some s
  | _ => none

def putLastFile (p : Preferences) (name : String) : Preferences :=
  p.put lastFileKey (.text name)

end Preferences

end Dragonstone.Editor
