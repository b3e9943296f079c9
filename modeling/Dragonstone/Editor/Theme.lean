/-
# Themes

Colours come in a light and a dark scheme.  The user chooses one of them, or leaves the choice to
the system, which keeps the scheme that is in use.
-/

import Dragonstone.Diagnostic
import Dragonstone.Editor.Highlight
import Dragonstone.Editor.Preferences

namespace Dragonstone.Editor

inductive Scheme where
  | light
  | dark
  deriving DecidableEq, Repr

/-- What the user chooses. -/
inductive ThemeMode where
  | light
  | dark
  | system
  deriving DecidableEq, Repr

namespace ThemeMode

def all : List ThemeMode :=
  [.light, .dark, .system]

def name : ThemeMode → String
  | .light => "light"
  | .dark => "dark"
  | .system => "system"

def title : ThemeMode → String
  | .light => "Light"
  | .dark => "Dark"
  | .system => "System"

def ofName? (name : String) : Option ThemeMode :=
  all.find? fun m => m.name == name

/-- The mode that a value names. -/
def ofSetting? : Setting → Option ThemeMode
  | .text name => ofName? name
  | _ => none

/-- Why a value is rejected that names no mode. -/
def rejection (value : Setting) : String :=
  value.shown ++ " is not a valid ThemeMode"

def scheme (current : Scheme) : ThemeMode → Scheme
  | .light => .light
  | .dark => .dark
  | .system => current

end ThemeMode

namespace Preferences

def themeKey : String := "theme_mode"

/-- The remembered mode, which is left to the system where none is. -/
def themeMode (p : Preferences) : ThemeMode :=
  ((p.get? themeKey).bind ThemeMode.ofSetting?).getD .system

def putThemeMode (p : Preferences) (mode : ThemeMode) : Preferences :=
  p.put themeKey (.text mode.name)

end Preferences

/-- The mode that is chosen and the scheme that is in use. -/
structure Theme where
  mode : ThemeMode
  scheme : Scheme
  deriving DecidableEq, Repr

namespace Theme

def choose (t : Theme) (mode : ThemeMode) : Theme :=
  ⟨mode, mode.scheme t.scheme⟩

/-- The theme at the start, when the light scheme is in use. -/
def start (p : Preferences) : Theme :=
  ⟨p.themeMode, p.themeMode.scheme .light⟩

end Theme

namespace Scheme

def syntaxColour : Scheme → Category → String
  | .light, .keyword => "#0057b7"
  | .light, .typeName => "#00838f"
  | .light, .builtin => "#6a1b9a"
  | .light, .constant => "#b71c1c"
  | .light, .number => "#b71c1c"
  | .light, .string => "#2e7d32"
  | .light, .comment => "#9e9e9e"
  | .dark, .keyword => "#569cd6"
  | .dark, .typeName => "#4ec9b0"
  | .dark, .builtin => "#c586c0"
  | .dark, .constant => "#d7ba7d"
  | .dark, .number => "#b5cea8"
  | .dark, .string => "#ce9178"
  | .dark, .comment => "#6a9955"

def diagnosticColour : Scheme → Severity → String
  | .light, .error => "#d32f2f"
  | .light, .warning => "#c77d00"
  | .dark, .error => "#f48771"
  | .dark, .warning => "#cca700"

def palette : Scheme → List (String × String)
  | .light => [
    ("Window", "#ffffff"), ("WindowText", "#000000"), ("Base", "#ffffff"),
    ("AlternateBase", "#f5f5f5"), ("Text", "#000000"), ("Button", "#f0f0f0"),
    ("ButtonText", "#000000"), ("Highlight", "#0078d4"), ("HighlightedText", "#ffffff")]
  | .dark => [
    ("Window", "#1e1e1e"), ("WindowText", "#e0e0e0"), ("Base", "#252526"),
    ("AlternateBase", "#3e3e42"), ("Text", "#d4d4d4"), ("Button", "#3e3e42"),
    ("ButtonText", "#e0e0e0"), ("Highlight", "#005a9e"), ("HighlightedText", "#e0e0e0")]

def name : Scheme → String
  | .light => "light"
  | .dark => "dark"

end Scheme

end Dragonstone.Editor
