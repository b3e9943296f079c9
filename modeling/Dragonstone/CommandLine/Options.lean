/-
# Command lines

Arguments are options, values of options, and positional arguments.  An option may be shortened as
long as only one option begins so; its value follows as the next argument or after an equals sign.
Two dashes end the options; written as a value they are dropped, and the option stands for no value
at all.  An argument with a dash in front is nevertheless no option if it is a number or holds a
space.  Positional arguments form one group: those that come after the first group are left over, as
are options that nobody knows.

A grammar says for every option what it does to a record of settings.
-/

import Dragonstone.Text
import Dragonstone.Text.DecimalDigit

namespace Dragonstone.CommandLine

/-- What an option does to the settings. -/
inductive Effect (σ : Type) where
  /-- The option stands alone. -/
  | flag (apply : σ → σ)
  /-- The option takes a value, which may be refused, or none where the value was dropped. -/
  | value (read : Option String → Option (σ → σ))
  /-- The option asks for the description of the program. -/
  | help

structure OptionSpec (σ : Type) where
  name : String
  effect : Effect σ
  /-- Options that may not be given together with this one. -/
  excludes : List String := []

/-- How many positional arguments a program takes. -/
inductive Arity where
  | none
  | any
  | atLeastOne
  deriving DecidableEq, Repr

/-- The arguments that a program understands. -/
structure Grammar (σ : Type) where
  options : List (OptionSpec σ)
  positionals : Arity

/-- Why a command line is not carried out. -/
inductive Stop where
  /-- The arguments are wrong. -/
  | usage
  /-- The description of the program was asked for. -/
  | help
  /-- A path holds a null character. -/
  | nullInPath
  deriving DecidableEq, Repr

def Stop.exitCode : Stop → Nat
  | .usage => 2
  | .help => 0
  | .nullInPath => 1

/-- An argument as it is read on its own. -/
inductive Token (σ : Type) where
  | plain (arg : String)
  | endMark
  | option (spec : OptionSpec σ) (value : Option String)
  /-- The short form of the option for help, with what is written right after it. -/
  | shortHelp (letters : Text)
  | unknown (arg : String)

def isNegativeNumber (arg : Text) : Bool :=
  let body := if arg.getLast? == some '\n' then arg.dropLast else arg
  match body with
  | '-' :: number =>
    let whole := number.takeWhile isDecimalDigit
    match number.dropWhile isDecimalDigit with
    | [] => !whole.isEmpty
    | '.' :: fraction => !fraction.isEmpty && fraction.all isDecimalDigit
    | _ => false
  | _ => false

/-- The argument cut at its first equals sign. -/
def cutAtEquals (arg : Text) : Text × Option String :=
  match arg.dropWhile (· != '=') with
  | [] => (arg, none)
  | _ :: value => (arg.takeWhile (· != '='), some (String.ofList value))

/-- An argument with a dash in front that is spelled like no option. -/
def Token.ofStranger (arg : String) : Token σ :=
  if isNegativeNumber arg.toList || arg.toList.contains ' ' then .plain arg else .unknown arg

def Grammar.startingWith (g : Grammar σ) (name : Text) : List (OptionSpec σ) :=
  g.options.filter fun o => name.isPrefixOf o.name.toList

def Grammar.longToken (g : Grammar σ) (arg : String) : Except Stop (Token σ) :=
  let (name, value) := cutAtEquals arg.toList
  match g.options.find? fun o => o.name == arg with
  | some o => .ok (.option o none)
  | none =>
    match g.options.find? fun o => o.name.toList == name with
    | some o => .ok (.option o value)
    | none =>
      match g.startingWith name with
      | [] => .ok (.ofStranger arg)
      | [o] => .ok (.option o value)
      | _ => .error .usage

def Grammar.token (g : Grammar σ) (arg : String) : Except Stop (Token σ) :=
  match arg.toList with
  | ['-', '-'] => .ok .endMark
  | '-' :: '-' :: _ => g.longToken arg
  | '-' :: 'h' :: letters => .ok (.shortHelp letters)
  | '-' :: _ :: _ => .ok (.ofStranger arg)
  | _ => .ok (.plain arg)

/-- All arguments; after the end mark none is an option. -/
def Grammar.tokens (g : Grammar σ) : List String → Except Stop (List (Token σ))
  | [] => .ok []
  | arg :: rest => do
    match ← g.token arg with
    | .endMark => return .endMark :: rest.map .plain
    | t => return t :: (← g.tokens rest)

/-- How far the one group of positional arguments has come. -/
inductive Group where
  | awaited
  | running
  | finished
  deriving DecidableEq, Repr

/-- What has been read of a command line. -/
structure Reading (σ : Type) where
  settings : σ
  /-- Names of the options so far. -/
  given : List String := []
  group : Group := .awaited
  positionals : List String := []
  leftOver : List String := []

namespace Reading

variable {σ : Type}

/-- A positional argument joins the group unless that is finished. -/
def addPlain (r : Reading σ) (arity : Arity) (arg : String) : Reading σ :=
  if r.group = .finished || arity = .none then { r with leftOver := r.leftOver ++ [arg] }
  else { r with group := .running, positionals := r.positionals ++ [arg] }

/-- An end mark is left over where no group of positional arguments takes it. -/
def addEndMark (r : Reading σ) (arity : Arity) : Reading σ :=
  if r.group = .finished || arity = .none then { r with leftOver := r.leftOver ++ ["--"] } else r

/-- An option ends a group of positional arguments. -/
def endGroup (r : Reading σ) : Reading σ :=
  { r with group := if r.group = .running then .finished else r.group }

/-- The settings after an option, which may not follow one that it excludes. -/
def apply (r : Reading σ) (o : OptionSpec σ) (f : σ → σ) : Except Stop (Reading σ) :=
  if o.excludes.any fun name => r.given.contains name then .error .usage
  else .ok { r.endGroup with settings := f r.settings, given := o.name :: r.given }

/-- The settings after an option with a value. -/
def applyValue (r : Reading σ) (o : OptionSpec σ) (read : Option String → Option (σ → σ))
    (value : Option String) : Except Stop (Reading σ) :=
  match read value with
  | some f => r.apply o f
  | none => .error .usage

end Reading

/-- What the short form of the option for help leads to.  The letters after it, with or without an
equals sign before them, are short options of their own, among which only help is known. -/
def Stop.ofShortHelp : Text → Stop
  | ['='] => .usage
  | '=' :: letters => if letters.all (· == 'h') then .help else .usage
  | letters => if letters.all (· == 'h') then .help else .usage

/-- The value after an equals sign; two dashes are dropped. -/
def attachedValue (value : String) : Option String :=
  if value == "--" then none else some value

/-- Read the arguments from left to right. -/
def Grammar.readTokens (g : Grammar σ) (r : Reading σ) :
    List (Token σ) → Except Stop (Reading σ)
  | [] => .ok r
  | .plain arg :: rest => g.readTokens (r.addPlain g.positionals arg) rest
  | .endMark :: rest => g.readTokens (r.addEndMark g.positionals) rest
  | .unknown arg :: rest =>
    g.readTokens { r.endGroup with leftOver := r.leftOver ++ [arg] } rest
  | .shortHelp letters :: _ => .error (.ofShortHelp letters)
  | .option o (some value) :: rest =>
    match o.effect with
    | .flag _ => .error .usage
    | .help => .error .usage
    | .value read => do g.readTokens (← r.applyValue o read (attachedValue value)) rest
  | .option o none :: .plain value :: rest =>
    match o.effect with
    | .flag f => do g.readTokens ((← r.apply o f).addPlain g.positionals value) rest
    | .help => .error .help
    | .value read => do g.readTokens (← r.applyValue o read (some value)) rest
  | .option o none :: rest =>
    match o.effect with
    | .flag f => do g.readTokens (← r.apply o f) rest
    | .help => .error .help
    | .value _ => .error .usage

/-- The settings, positional arguments and left-over arguments of a command line. -/
def Grammar.readKnown (g : Grammar σ) (defaults : σ) (args : List String) :
    Except Stop (Reading σ) := do
  let r ← g.readTokens { settings := defaults } (← g.tokens args)
  if g.positionals = .atLeastOne && r.positionals.isEmpty then throw .usage
  return r

/-- The settings and positional arguments of a command line that leaves nothing over. -/
def Grammar.read (g : Grammar σ) (defaults : σ) (args : List String) :
    Except Stop (σ × List String) := do
  let r ← g.readKnown defaults args
  if r.leftOver.isEmpty then return (r.settings, r.positionals) else throw .usage

def flagOption (name : String) (apply : σ → σ) : OptionSpec σ :=
  { name := name, effect := .flag apply }

/-- An option with a value, which is read and set; where it was dropped, nothing is set in its
place. -/
def valueOption (name : String) (read : String → Option α) (set : Option α → σ → σ) :
    OptionSpec σ where
  name := name
  effect := .value fun
    | none => some (set none)
    | some value => (read value).map fun a => set (some a)

def helpOption : OptionSpec σ :=
  { name := "--help", effect := .help }

end Dragonstone.CommandLine
