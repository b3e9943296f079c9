/-
# Log levels

The levels at which programs write their logs.
-/

namespace Dragonstone

/-- The levels of a log, from everything to almost nothing. -/
inductive LogLevel where
  | notset
  | debug
  | info
  | warning
  | error
  | critical
  deriving DecidableEq, Repr

namespace LogLevel

def name : LogLevel → String
  | .notset => "NOTSET"
  | .debug => "DEBUG"
  | .info => "INFO"
  | .warning => "WARNING"
  | .error => "ERROR"
  | .critical => "CRITICAL"

def rank : LogLevel → Nat
  | .notset => 0
  | .debug => 10
  | .info => 20
  | .warning => 30
  | .error => 40
  | .critical => 50

/-- Records of this level are kept where records from `threshold` on are. -/
def passes (threshold level : LogLevel) : Bool :=
  threshold.rank ≤ level.rank

/-- Levels under all their names. -/
def names : List (String × LogLevel) :=
  [("CRITICAL", .critical), ("FATAL", .critical), ("ERROR", .error), ("WARN", .warning),
    ("WARNING", .warning), ("INFO", .info), ("DEBUG", .debug), ("NOTSET", .notset)]

/-- A letter of a level's name written as a capital.  Two letters outside ASCII have an ASCII
capital. -/
def capital (c : Char) : Char :=
  if c == '\u0131' then 'I' else if c == '\u017f' then 'S' else c.toUpper

/-- The level of a name, in capital or small letters. -/
def ofName? (name : String) : Option LogLevel :=
  (names.find? fun entry => entry.1.toList == name.toList.map capital).map Prod.snd

/-- The level of a command-line option, which allows four names in capitals. -/
def ofChoice? (name : String) : Option LogLevel :=
  [.debug, .info, .warning, .error].find? fun level : LogLevel => level.name == name

end LogLevel

end Dragonstone
