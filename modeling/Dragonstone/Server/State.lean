/-
# The language server

The server holds the documents that the client has open, the configuration and the log level.  It
answers one message at a time; besides its reply a message may make it publish diagnostics and write
to the log.  Options that are no object or that do not fit are logged, and the configuration stays
as it was.  After any change of the configuration all open documents are validated again.  A client
that initializes the server begins without open documents.
-/

import Dragonstone.Config.Merge
import Dragonstone.Log
import Dragonstone.Server.Protocol
import Dragonstone.Session

namespace Dragonstone.Server

/-- A replacement of a range of a document, or of the whole document. -/
structure Change where
  range : Option Range
  text : Text
  deriving DecidableEq, Repr

def Change.apply (text : Text) (c : Change) : Text :=
  match c.range with
  | some r => replaceRange text r c.text
  | none => c.text

inductive Message where
  | initializeWith (options : Setting)
  | configure (settings : Setting)
  | didOpen (uri : String) (text : Text)
  | didChange (uri : String) (changes : List Change)
  | didClose (uri : String)
  | symbols (uri : String)
  | hover (uri : String) (position : Position)
  | definition (uri : String) (position : Position)
  | format (uri : String)
  | complete (uri : String) (position : Position)

/-- What the server answers to a request; notifications have no answer. -/
inductive Reply where
  | nothing
  | capabilities
  | symbols (found : List Symbol)
  | hover (found : Option Lookup.Hover)
  | definition (found : Option Lookup.Location)
  | edits (found : List Edit)
  | completions (found : List Completion.Item)

inductive Warning where
  | notAnObject (options : Setting)
  | unknownLogLevel (value : Setting)
  | invalidConfig (error : ConfigError)

def Warning.message : Warning → String
  | .notAnObject options => "ignoring non-object options: " ++ options.shown
  | .unknownLogLevel value => "unknown log level " ++ value.shown
  | .invalidConfig e => "invalid configuration: " ++ e.message

def name : String := "dragonstone-ls"

def version : String := "0.3.0"

/-- The section of a client's settings that is meant for the server. -/
def settingsSection : String := "dragonstone"

def logLevelKey : String := "logLevel"

structure State where
  documents : Store := {}
  config : Config := {}
  logLevel : LogLevel := .warning

/-- What a message leads to. -/
structure Outcome where
  state : State
  published : List Publication := []
  warnings : List Warning := []
  reply : Reply := .nothing

namespace State

/-- A warning is logged if the log level lets it pass. -/
def logged (s : State) (w : Warning) : List Warning :=
  if s.logLevel.passes .warning then [w] else []

/-- The log level that an option asks for. -/
def setLogLevel (s : State) (value : Setting) : State × List Warning :=
  if value.isBlank then (s, [])
  else
    match value with
    | .text name =>
      match LogLevel.ofName? name with
      | some level => ({ s with logLevel := level }, [])
      | none => (s, s.logged (.unknownLogLevel value))
    | _ => (s, s.logged (.unknownLogLevel value))

/-- The configuration with options merged in, if they are valid. -/
def mergeConfig (s : State) (options : Setting) : State × List Warning :=
  match s.config.merged options with
  | .ok c => ({ s with config := c }, [])
  | .error e => (s, s.logged (.invalidConfig e))

/-- Take over the options of a client: first the log level, then the configuration. -/
def applyOptions (s : State) (options : Setting) : State × List Warning :=
  if options.isBlank then (s, [])
  else
    match options with
    | .object fields =>
      let (leveled, first) := s.setLogLevel ((Setting.field? logLevelKey fields).getD .null)
      let (merged, second) := leveled.mergeConfig options
      (merged, first ++ second)
    | _ => (s, s.logged (.notAnObject options))

/-- The part of a client's settings that is meant for the server. -/
def ownSettings : Setting → Setting
  | .object fields => (Setting.field? settingsSection fields).getD .null
  | _ => .null

/-- The diagnostics of a document, as they are published. -/
def publication (s : State) (uri : String) : Publication :=
  ⟨uri, s.documents.diagnostics s.config uri⟩

def step (s : State) : Message → Outcome
  | .initializeWith options =>
    let (next, warnings) := { s with documents := {} }.applyOptions options
    { state := next, warnings := warnings, reply := .capabilities }
  | .configure settings =>
    let (next, warnings) := s.applyOptions (ownSettings settings)
    { state := next, warnings := warnings,
      published := next.documents.keys.map next.publication }
  | .didOpen uri text =>
    let next := { s with documents := s.documents.put uri text }
    { state := next, published := [next.publication uri] }
  | .didChange uri changes =>
    match s.documents.get? uri with
    | some text =>
      let next := { s with documents := s.documents.put uri (changes.foldl Change.apply text) }
      { state := next, published := [next.publication uri] }
    | none => { state := s, published := if changes.isEmpty then [⟨uri, []⟩] else [] }
  | .didClose uri =>
    { state := { s with documents := s.documents.erase uri }, published := [⟨uri, []⟩] }
  | .symbols uri => { state := s, reply := .symbols (s.documents.symbols uri) }
  | .hover uri p => { state := s, reply := .hover (s.documents.hover? uri p) }
  | .definition uri p => { state := s, reply := .definition (s.documents.definition? uri p) }
  | .format uri => { state := s, reply := .edits (s.documents.formatEdits s.config uri) }
  | .complete uri p => { state := s, reply := .completions (s.documents.candidates uri p) }

/-- The outcomes of a sequence of messages. -/
def run (s : State) : List Message → List Outcome
  | [] => []
  | m :: rest =>
    let o := s.step m
    o :: o.state.run rest

end State

end Dragonstone.Server
