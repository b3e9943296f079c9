/-
# Actions and menus

What can be chosen from the menus and pressed as a button.
-/

namespace Dragonstone.Editor

inductive Action where
  | newFile
  | openFile
  | save
  | saveAs
  | format
  | definition
  | complete
  | validate
  | enlargeFont
  | shrinkFont
  | resetFont
  | outline
  | theme
  | settings
  | keywordHelp
  | about
  deriving DecidableEq, Repr

namespace Action

def all : List Action :=
  [.newFile, .openFile, .save, .saveAs, .format, .definition, .complete, .validate, .enlargeFont,
    .shrinkFont, .resetFont, .outline, .theme, .settings, .keywordHelp, .about]

def name : Action → String
  | .newFile => "new"
  | .openFile => "open"
  | .save => "save"
  | .saveAs => "save_as"
  | .format => "format"
  | .definition => "definition"
  | .complete => "complete"
  | .validate => "validate"
  | .enlargeFont => "inc_font"
  | .shrinkFont => "dec_font"
  | .resetFont => "reset_font"
  | .outline => "outline"
  | .theme => "theme"
  | .settings => "settings"
  | .keywordHelp => "keyword_help"
  | .about => "about"

def ofName? (name : String) : Option Action :=
  all.find? fun a => a.name == name

def label : Action → String
  | .newFile => "New File"
  | .openFile => "Open File"
  | .save => "Save"
  | .saveAs => "Save As…"
  | .format => "Format Document"
  | .definition => "Go to Definition"
  | .complete => "Trigger Completion"
  | .validate => "Validate Now"
  | .enlargeFont => "Increase Editor Font"
  | .shrinkFont => "Decrease Editor Font"
  | .resetFont => "Reset Editor Font"
  | .outline => "Show/Hide Outline"
  | .theme => "Theme Settings"
  | .settings => "Analyzer Settings…"
  | .keywordHelp => "Keyword Help"
  | .about => "About Dragonstone Editor"

end Action

/-- The keys that trigger an action. -/
inductive Shortcut where
  /-- The keys that a platform has for a common action. -/
  | standard (name : String)
  | keys (text : String)
  deriving DecidableEq, Repr

def Action.shortcut? : Action → Option Shortcut
  | .newFile => some (.standard "New")
  | .openFile => some (.standard "Open")
  | .save => some (.standard "Save")
  | .saveAs => some (.keys "Ctrl+Shift+S")
  | .format => some (.keys "Ctrl+Shift+I")
  | .definition => some (.keys "F12")
  | .complete => some (.keys "Ctrl+Space")
  | .validate => some (.keys "F7")
  | .enlargeFont => some (.keys "Ctrl+=")
  | .shrinkFont => some (.keys "Ctrl+-")
  | .resetFont => some (.keys "Ctrl+0")
  | .outline => none
  | .theme => none
  | .settings => none
  | .keywordHelp => some (.keys "F1")
  | .about => none

/-- A menu: its title, and its actions in groups between which separators stand. -/
structure Menu where
  title : String
  groups : List (List Action)
  deriving DecidableEq, Repr

def menus : List Menu := [
  ⟨"File", [[.newFile, .openFile], [.save, .saveAs]]⟩,
  ⟨"Code", [[.format, .definition, .complete], [.validate]]⟩,
  ⟨"View", [[.enlargeFont, .shrinkFont, .resetFont], [.outline], [.theme]]⟩,
  ⟨"Tools", [[.settings], [.keywordHelp]]⟩,
  ⟨"Help", [[.about]]⟩
]

inductive Button where
  | clearLog
  | act (action : Action)
  deriving DecidableEq, Repr

namespace Button

def label : Button → String
  | .clearLog => "Clear Logs"
  | .act .openFile => "Open…"
  | .act .format => "Format"
  | .act .validate => "Validate"
  | .act a => a.label

def all : List Button :=
  [.clearLog, .act .openFile, .act .save, .act .format, .act .validate]

def ofLabel? (label : String) : Option Button :=
  all.find? fun b => b.label == label

end Button

end Dragonstone.Editor
