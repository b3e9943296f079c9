/-
# Dialogs

What the user is asked, and how the answers are read.  Answers come in a list, first come first
served; a dialog without an answer is cancelled.
-/

import Dragonstone.Config
import Dragonstone.Editor.Theme
import Dragonstone.Text.Lowercase
import Dragonstone.Vocabulary.Entries

namespace Dragonstone.Editor

/-- What the user filled into a dialog.  What is left out stays as it was shown. -/
structure Form where
  /-- The dialog was confirmed. -/
  accepted : Bool := false
  /-- The label of the radio button that was chosen. -/
  choice? : Option String := none
  /-- The labels of check boxes with their new states. -/
  checks : List (String × Bool) := []
  /-- The number that was entered. -/
  number? : Option Int := none
  /-- The text that was searched for. -/
  search? : Option String := none
  deriving DecidableEq, Repr

inductive Answer where
  | cancelled
  | text (text : String)
  | form (form : Form)
  deriving DecidableEq, Repr

/-- The form of an answer; any other answer fills in nothing. -/
def Answer.filled : Answer → Form
  | .form f => f
  | _ => {}

inductive Dialog where
  | openFile (directory : String)
  | saveFile (directory : String)
  | unsavedChanges
  | about
  | theme (current : ThemeMode)
  | settings (current : Config)
  /-- The keywords that were searched for, each with its help. -/
  | keywordHelp (rows : List (Text × Text))
  deriving DecidableEq, Repr

def Dialog.title : Dialog → String
  | .openFile _ => "Open Dragonstone file"
  | .saveFile _ => "Save Dragonstone file"
  | .unsavedChanges => "Unsaved changes"
  | .about => "About Dragonstone Editor"
  | .theme _ => "Theme Settings"
  | .settings _ => "Analyzer Settings"
  | .keywordHelp _ => "Keyword Help"

def fileKinds : String := "Dragonstone Files (*.ds);;All files (*)"

def Dialog.message : Dialog → String
  | .unsavedChanges => "Save changes before closing?"
  | .about =>
    "Dragonstone Editor - an editor for the Dragonstone language\n\n" ++
      "Features:\n" ++
      "• Syntax highlighting\n" ++
      "• Code completion\n" ++
      "• Block and naming diagnostics\n" ++
      "• Document outline and go to definition\n" ++
      "• Indentation formatting\n"
  | _ => ""

/-! ### The dialog for the options of the analyzer -/

/-- The options that are check boxes, with their labels. -/
def checkBoxes : List (ConfigField × String) :=
  [(.checkNaming, "Report naming convention errors"),
    (.checkBrackets, "Report mismatched brackets"),
    (.reportCommentNesting, "Report unbalanced block comments")]

/-- The widths that can be entered. -/
def clampWidth (n : Int) : Int :=
  max 1 (min n 16)

def Dialog.checked (c : Config) : ConfigField → Bool
  | .checkNaming => c.checkNaming
  | .checkBrackets => c.checkBrackets
  | .reportCommentNesting => c.reportCommentNesting
  | _ => false

/-- The check boxes of the dialog as they are shown. -/
def shownChecks (c : Config) : List (String × Bool) :=
  checkBoxes.map fun (field, label) => (label, Dialog.checked c field)

/-- The options that a filled dialog stands for. -/
def Form.options (f : Form) (c : Config) : List (String × Setting) :=
  let width := clampWidth (f.number?.getD (clampWidth c.indentWidth))
  (ConfigField.indentWidth.clientName, .int width) ::
    checkBoxes.map fun (field, label) =>
      let state := (f.checks.find? fun check => check.1 == label).map Prod.snd
      (field.clientName, .flag (state.getD (Dialog.checked c field)))

/-! ### The dialogs for the theme and for help -/

/-- The mode that a filled dialog stands for. -/
def Form.themeMode (f : Form) (current : ThemeMode) : ThemeMode :=
  match f.choice? with
  | none => current
  | some title => (ThemeMode.all.find? fun m => m.title == title).getD current

def occursIn (needle : Text) : Text → Bool
  | [] => needle.isEmpty
  | c :: rest => needle.isPrefixOf (c :: rest) || occursIn needle rest

/-- The keywords in which a text occurs, in small letters or capitals, each with its help. -/
def searchKeywords (wanted : Text) : List (Text × Text) :=
  let found := Vocabulary.sortedKeywords.filter fun k => occursIn (lowercase wanted) (lowercase k)
  found.map fun k => (k, Vocabulary.help k)

/-! ### Asking -/

/-- A conversation: the answers still to come, and the dialogs that were shown. -/
structure Talk where
  answers : List Answer := []
  asked : List Dialog := []
  deriving DecidableEq, Repr

namespace Talk

/-- The answer to the next dialog. -/
def next (t : Talk) : Answer :=
  t.answers.headD .cancelled

/-- A dialog was shown and took its answer. -/
def after (t : Talk) (d : Dialog) : Talk :=
  ⟨t.answers.tail, t.asked ++ [d]⟩

end Talk

end Dragonstone.Editor
