/-
# A session over open documents

A session holds the documents, the configuration and what was last published about each document.
Every answer is computed anew from the text; a document that is not open has no text and gets the
empty answer.
-/

import Dragonstone.Completion.Candidates
import Dragonstone.Config
import Dragonstone.Indentation
import Dragonstone.Lookup
import Dragonstone.Store
import Dragonstone.Validation

namespace Dragonstone

/-- Diagnostics sent to whoever listens, replacing what was sent before for the same document. -/
structure Publication where
  uri : String
  diagnostics : List Diagnostic
  deriving DecidableEq, Repr

/-! ### The answers that a store gives -/

namespace Store

def diagnostics (store : Store) (config : Config) (uri : String) : List Diagnostic :=
  match store.get? uri with
  | some text => validate config text
  | none => []

def symbols (store : Store) (uri : String) : List Symbol :=
  match store.get? uri with
  | some text => outline text
  | none => []

def hover? (store : Store) (uri : String) (p : Position) : Option Lookup.Hover :=
  (store.get? uri).bind fun text => Lookup.hover? text p

/-- Where the word at a position of a document is defined. -/
def definition? (store : Store) (uri : String) (p : Position) : Option Lookup.Location :=
  (store.get? uri).bind fun text => Lookup.definition? uri text p

def formatEdits (store : Store) (config : Config) (uri : String) : List Edit :=
  match store.get? uri with
  | some text => Dragonstone.formatEdits config.indentWidth text
  | none => []

def candidates (store : Store) (uri : String) (p : Position) : List Completion.Item :=
  match store.get? uri with
  | some text => Completion.candidates text p
  | none => []

end Store

structure Session where
  documents : Store := {}
  config : Config := {}
  /-- What was last published for each document. -/
  published : KeyMap (List Diagnostic) := {}

namespace Session

/-- A document is opened with a text, or its text is replaced. -/
def update (s : Session) (uri : String) (text : Text) : Session :=
  { s with documents := s.documents.put uri text }

/-- A document is no longer open. -/
def close (s : Session) (uri : String) : Session :=
  { s with documents := s.documents.erase uri }

/-- A publication is remembered in place of the one before. -/
def receive (s : Session) (p : Publication) : Session :=
  { s with published := s.published.put p.uri p.diagnostics }

def validate (s : Session) (uri : String) : Session × List Diagnostic :=
  let found := s.documents.diagnostics s.config uri
  (s.receive ⟨uri, found⟩, found)

/-- A closed document has no diagnostics. -/
def retract (s : Session) (uri : String) : Session :=
  s.receive ⟨uri, []⟩

/-- What was last published for a document. -/
def found (s : Session) (uri : String) : List Diagnostic :=
  (s.published.get? uri).getD []

/-- Nothing was published for a document. -/
def forget (s : Session) (uri : String) : Session :=
  { s with published := s.published.erase uri }

end Session

end Dragonstone
