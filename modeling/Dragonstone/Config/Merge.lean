/-
# Merging options into a configuration

Options are read under two spellings, that of clients and that of the configuration itself.  The
last option for a field decides, unknown options are ignored, and the result is checked as a whole:
either all options are taken over, or none is.
-/

import Dragonstone.Config
import Dragonstone.Setting

namespace Dragonstone

inductive ConfigField where
  | indentWidth
  | source
  | checkNaming
  | checkBrackets
  | reportCommentNesting
  deriving DecidableEq, Repr

namespace ConfigField

/-- All fields, in the order in which they are checked and stored. -/
def all : List ConfigField :=
  [.indentWidth, .source, .checkNaming, .checkBrackets, .reportCommentNesting]

/-- The spelling in messages and configuration. -/
def name : ConfigField → String
  | .indentWidth => "indent_width"
  | .source => "source"
  | .checkNaming => "check_naming"
  | .checkBrackets => "check_brackets"
  | .reportCommentNesting => "report_comment_nesting"

/-- The spelling of clients. -/
def clientName : ConfigField → String
  | .indentWidth => "indentWidth"
  | .source => "diagnosticSource"
  | .checkNaming => "checkNaming"
  | .checkBrackets => "checkBrackets"
  | .reportCommentNesting => "reportCommentNesting"

/-- The field that an option sets, in either spelling. -/
def ofKey? (key : String) : Option ConfigField :=
  all.find? fun f => f.name == key || f.clientName == key

end ConfigField

/-- Why options are rejected. -/
inductive ConfigError where
  | notAnObject (value : Setting)
  | widthNotInteger (value : Setting)
  | widthBelowOne (value : Int)
  | sourceEmpty
  | notAFlag (field : ConfigField) (value : Setting)

def ConfigError.message : ConfigError → String
  | .notAnObject value => "options must be a mapping, got " ++ value.shape
  | .widthNotInteger value => "indent_width must be an integer, got " ++ value.shown
  | .widthBelowOne value => "indent_width must be at least 1, got " ++ toString value
  | .sourceEmpty => "source must be a non-empty string"
  | .notAFlag field value => field.name ++ " must be true or false, got " ++ value.shown

/-- A configuration with values that are still to be checked. -/
abbrev Draft := ConfigField → Setting

namespace Config

def setting (c : Config) : ConfigField → Setting
  | .indentWidth => .int c.indentWidth
  | .source => .text c.source
  | .checkNaming => .flag c.checkNaming
  | .checkBrackets => .flag c.checkBrackets
  | .reportCommentNesting => .flag c.reportCommentNesting

/-- A configuration as text in log messages. -/
def describe (c : Config) : String :=
  let shown (f : ConfigField) := f.name ++ "=" ++ (c.setting f).shown
  "AnalyzerConfig(" ++ String.intercalate ", " (ConfigField.all.map shown) ++ ")"

end Config

namespace Draft

/-- One option replaces the value of the field that it names. -/
def set (d : Draft) (option : String × Setting) : Draft :=
  match ConfigField.ofKey? option.1 with
  | none => d
  | some f => fun g => if g = f then option.2 else d g

def width? (d : Draft) : Except ConfigError Nat :=
  match d .indentWidth with
  | .int n => if n < 1 then .error (.widthBelowOne n) else .ok n.toNat
  | other => .error (.widthNotInteger other)

def source? (d : Draft) : Except ConfigError String :=
  match d .source with
  | .text s => if s.isEmpty then .error .sourceEmpty else .ok s
  | _ => .error .sourceEmpty

def flag? (d : Draft) (f : ConfigField) : Except ConfigError Bool :=
  match d f with
  | .flag b => .ok b
  | other => .error (.notAFlag f other)

/-- The configuration that a draft describes, or the first of its faults. -/
def check (d : Draft) : Except ConfigError Config := do
  return {
    indentWidth := ← d.width?
    source := ← d.source?
    checkNaming := ← d.flag? .checkNaming
    checkBrackets := ← d.flag? .checkBrackets
    reportCommentNesting := ← d.flag? .reportCommentNesting }

end Draft

namespace Config

/-- A configuration with options merged in.  A value that says nothing changes nothing. -/
def merged (c : Config) (options : Setting) : Except ConfigError Config :=
  if options.isBlank then .ok c
  else
    match options with
    | .object fields => (fields.foldl Draft.set c.setting).check
    | other => .error (.notAnObject other)

/-- The configuration that options describe, starting from the defaults. -/
def ofOptions (options : Setting) : Except ConfigError Config :=
  merged {} options

/-- The spaces of one level of indentation. -/
def indentUnit (c : Config) : List Char :=
  List.replicate c.indentWidth ' '

end Config

end Dragonstone
