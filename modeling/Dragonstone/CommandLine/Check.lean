/-
# Checking files

The program that reports the diagnostics of files, or formats them.  It goes through its inputs in
order, whatever happens to one of them; an input that cannot be read is complained about and counts
as an error.  Only a reformatted file is ever written.
-/

import Dragonstone.CommandLine.Options
import Dragonstone.Config.Merge
import Dragonstone.Files.Directory
import Dragonstone.Indentation
import Dragonstone.Log
import Dragonstone.Text.Numeral
import Dragonstone.Validation
import Dragonstone.Symbol

namespace Dragonstone.CommandLine

/-- The options of the checker.  A value that was dropped from the command line is none. -/
structure CheckOptions where
  format : Bool := false
  write : Bool := false
  symbols : Bool := false
  indentWidth : Option Int := some 4
  skipNaming : Bool := false
  skipBrackets : Bool := false
  logLevel : Option LogLevel := some .warning
  deriving DecidableEq, Repr

def checkGrammar : Grammar CheckOptions where
  options := [
    helpOption,
    flagOption "--format" fun o => { o with format := true },
    flagOption "--write" fun o => { o with write := true },
    flagOption "--symbols" fun o => { o with symbols := true },
    valueOption "--indent-width" (fun v => readInt? v.toList) fun n o => { o with indentWidth := n },
    flagOption "--no-naming" fun o => { o with skipNaming := true },
    flagOption "--no-brackets" fun o => { o with skipBrackets := true },
    valueOption "--log-level" LogLevel.ofChoice? fun l o => { o with logLevel := l }]
  positionals := .atLeastOne

/-- The configuration that the options ask for. -/
def CheckOptions.config (o : CheckOptions) : Except ConfigError Config :=
  let changes : List (String × Setting) := [
    (ConfigField.indentWidth.name, .ofInt? o.indentWidth),
    (ConfigField.checkNaming.name, .flag !o.skipNaming),
    (ConfigField.checkBrackets.name, .flag !o.skipBrackets)]
  Config.ofOptions (.object changes)

/-- What the checker complains about. -/
inductive Complaint where
  | badConfig (error : ConfigError)
  | missing (path : Path)
  | unreadable (path : Path) (error : FileError)
  | notText (path : Path) (error : Utf8.Error)

def Complaint.message : Complaint → String
  | .badConfig e => e.message
  | .missing path => "file not found: " ++ path.toString
  | .unreadable path e => "cannot read " ++ path.toString ++ ": " ++ e.message
  | .notText path e => "cannot read " ++ path.toString ++ ": " ++ e.message

def Complaint.line (c : Complaint) : String :=
  "[dscheck:error] " ++ c.message

def readInput (d : Directory) (path : Path) : Except Complaint Text :=
  match d.read path with
  | .error (.notFound _) => .error (.missing path)
  | .error e => .error (.unreadable path e)
  | .ok bytes =>
    match Utf8.decode bytes with
    | .ok text => .ok text
    | .error e => .error (.notText path e)

/-- A diagnostic as it is printed, counted from one. -/
def diagnosticLine (path : Path) (d : Diagnostic) : String :=
  path.toString ++ ":" ++ toString (d.range.start.line + 1) ++ ":" ++
    toString (d.range.start.character + 1) ++ ": " ++ d.severity.label ++ ": " ++ d.message

def symbolLine (path : Path) (s : Symbol) : String :=
  path.toString ++ ":" ++ toString (s.line + 1) ++ ": " ++ s.kind.label ++ " " ++
    String.ofList s.display

/-- Lines of output, each with its line feed. -/
def printed (ls : List String) : String :=
  String.join (ls.map fun l => l ++ "\n")

/-- A text of output, which ends with a line feed. -/
def printedText (s : Text) : String :=
  if s.getLast? == some '\n' then String.ofList s else String.ofList s ++ "\n"

structure CheckState where
  directory : Directory
  output : String := ""
  complaints : List Complaint := []
  errors : Nat := 0

/-- Format an input: write it back if it changes, or print it. -/
def formatInput (o : CheckOptions) (c : Config) (path : Path) (text : Text) (s : CheckState) :
    CheckState :=
  let edits := formatEdits c.indentWidth text
  let result := formatted c.indentWidth text
  if o.write then
    if edits.isEmpty then s
    else
      match s.directory.write path (Utf8.encode result) with
      | .ok d =>
        { s with
          directory := d
          output := s.output ++ "reformatted " ++ path.toString ++ " (" ++
            toString edits.length ++ " lines)\n" }
      | .error e =>
        { s with complaints := s.complaints ++ [.unreadable path e], errors := s.errors + 1 }
  else { s with output := s.output ++ printedText result }

/-- Report the diagnostics of an input. -/
def reportInput (c : Config) (path : Path) (text : Text) (s : CheckState) : CheckState :=
  let found := validate c text
  { s with
    output := s.output ++ printed (found.map (diagnosticLine path))
    errors := s.errors + found.countP fun d => d.severity = .error }

def checkInput (o : CheckOptions) (c : Config) (s : CheckState) (path : Path) : CheckState :=
  match readInput s.directory path with
  | .error complaint =>
    { s with complaints := s.complaints ++ [complaint], errors := s.errors + 1 }
  | .ok text =>
    let listed :=
      if o.symbols then
        { s with output := s.output ++ printed ((outline text).map (symbolLine path)) }
      else s
    if o.format || o.write then formatInput o c path text listed
    else reportInput c path text listed

structure CheckOutcome where
  exitCode : Nat
  output : String
  complaints : List Complaint
  directory : Directory

def check (d : Directory) (o : CheckOptions) (inputs : List Path) : CheckOutcome :=
  match o.config with
  | .error e => ⟨2, "", [.badConfig e], d⟩
  | .ok c =>
    let last := inputs.foldl (checkInput o c) { directory := d }
    ⟨if last.errors = 0 then 0 else 1, last.output, last.complaints, last.directory⟩

def runCheck (d : Directory) (args : List String) : Except Stop CheckOutcome := do
  let (o, inputs) ← checkGrammar.read {} args
  let paths := inputs.map Path.ofString
  if o.config.toBool && paths.any Path.hasNull then throw .nullInPath
  return check d o paths

/-- The inputs that are gone through: the first path that no file system takes ends the program. -/
def reachedInputs (inputs : List String) : List Path :=
  (inputs.map Path.ofString).takeWhile fun p => !p.hasNull

/-- What a command line leaves of a directory, however the program ends.  A file that was written
before the end stays as it was written. -/
def directoryAfter (d : Directory) (args : List String) : Directory :=
  match checkGrammar.read {} args with
  | .error _ => d
  | .ok (o, inputs) => (check d o (reachedInputs inputs)).directory

end Dragonstone.CommandLine
