/-
# Starting the language server

The command line of the language server: over which transport it serves, with which configuration,
and where its log goes.
-/

import Dragonstone.CommandLine.Options
import Dragonstone.Config.Merge
import Dragonstone.Files.Path
import Dragonstone.Log
import Dragonstone.Text.Numeral

namespace Dragonstone.CommandLine

/-- The options of the server.  A value that was dropped from the command line is none. -/
structure ServeOptions where
  tcp : Bool := false
  host : Option String := some "127.0.0.1"
  port : Option Int := some 2087
  indentWidth : Option Int := some 4
  logLevel : Option LogLevel := some .info
  logFile : Option Path := none
  deriving DecidableEq, Repr

/-- The command line of the server.  Only one transport can be asked for. -/
def serveGrammar : Grammar ServeOptions where
  options := [
    helpOption,
    { name := "--stdio", effect := .flag id, excludes := ["--tcp"] },
    { name := "--tcp", effect := .flag fun o => { o with tcp := true }, excludes := ["--stdio"] },
    valueOption "--host" some fun h o => { o with host := h },
    valueOption "--port" (fun v => readInt? v.toList) fun n o => { o with port := n },
    valueOption "--indent-width" (fun v => readInt? v.toList) fun n o => { o with indentWidth := n },
    valueOption "--log-level" LogLevel.ofChoice? fun l o => { o with logLevel := l },
    valueOption "--log-file" (fun v => some (Path.ofString v)) fun p o => { o with logFile := p }]
  positionals := .none

/-- How a server is reached. -/
inductive Transport where
  | stdio
  | tcp (host : Option String) (port : Option Int)
  deriving DecidableEq, Repr

structure LogRecord where
  level : LogLevel
  message : String
  deriving DecidableEq, Repr

/-- What starting the server comes to. -/
structure ServeOutcome where
  exitCode : Nat
  /-- The server that was started, with its configuration. -/
  started : Option (Transport × Config)
  log : List LogRecord
  logLevel : LogLevel
  logFile : Option Path

/-- The file that the log makes in the working directory. -/
def ServeOutcome.localLogFile? (o : ServeOutcome) : Option Path :=
  o.logFile.filter Path.isLocalName

/-- Why a server cannot be started at all. -/
inductive ServeFault where
  | noLogLevel
  | noPort
  deriving DecidableEq, Repr

def ServeFault.message : ServeFault → String
  | .noLogLevel => "Level not an integer or a valid string: []"
  | .noPort => "%d format: a real number is required, not list"

def ServeOptions.transport (o : ServeOptions) : Transport :=
  if o.tcp then .tcp o.host o.port else .stdio

/-- The line by which a server announces itself, which has to name the port. -/
def Transport.announcement : Transport → Except ServeFault String
  | .stdio => .ok "serving on stdio"
  | .tcp _ none => .error .noPort
  | .tcp host (some port) => .ok ("listening on " ++ host.getD "[]" ++ ":" ++ toString port)

def ServeOptions.config (o : ServeOptions) : Except ConfigError Config :=
  Config.ofOptions (.object [(ConfigField.indentWidth.name, .ofInt? o.indentWidth)])

/-- What is logged at the start: that the configuration is invalid, or where the server listens.
Below the log level nothing is worded. -/
def startLog (level : LogLevel) (t : Transport) :
    Except ConfigError Config → Except ServeFault (List LogRecord)
  | .error e =>
    .ok (if level.passes .error then [⟨.error, "invalid configuration: " ++ e.message⟩] else [])
  | .ok _ => if level.passes .info then t.announcement.map fun m => [⟨.info, m⟩] else .ok []

def serve (o : ServeOptions) : Except ServeFault ServeOutcome :=
  match o.logLevel with
  | none => .error .noLogLevel
  | some level =>
    (startLog level o.transport o.config).map fun log =>
      match o.config with
      | .error _ => ⟨2, none, log, level, o.logFile⟩
      | .ok c => ⟨0, some (o.transport, c), log, level, o.logFile⟩

def runServe (args : List String) : Except Stop (Except ServeFault ServeOutcome) := do
  let (o, _) ← serveGrammar.read {} args
  if o.logFile.any Path.hasNull then throw .nullInPath
  return serve o

end Dragonstone.CommandLine
