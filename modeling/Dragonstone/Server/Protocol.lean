/-
# Values of the editor protocol

The numbers by which the protocol between editors and language servers knows severities and kinds,
and the form in which diagnostics are sent.
-/

import Dragonstone.Completion.Item
import Dragonstone.Diagnostic
import Dragonstone.Symbol

namespace Dragonstone

def Severity.protocolNumber : Severity → Nat
  | .error => 1
  | .warning => 2

def SymbolKind.protocolNumber : SymbolKind → Nat
  | .typeKind => 5
  | .enumKind => 10
  | .moduleKind => 2
  | .methodKind => 6
  | .functionKind => 12
  | .constantKind => 14
  | .variableKind => 13

/-- The protocol's number of a kind of completion. -/
def Completion.ItemKind.protocolNumber : Completion.ItemKind → Nat
  | .plainText => 1
  | .method => 2
  | .function => 3
  | .variableName => 6
  | .typeName => 7
  | .moduleName => 9
  | .keyword => 14
  | .constant => 21

/-- The protocol's number of the format of an inserted text, which is sent for snippets only. -/
def Completion.Item.protocolFormat? (item : Completion.Item) : Option Nat :=
  if item.snippet then some 2 else none

structure SentDiagnostic where
  range : Range
  message : String
  severity : Nat
  source : String
  deriving DecidableEq, Repr

def Diagnostic.sent (d : Diagnostic) : SentDiagnostic :=
  ⟨d.range, d.message, d.severity.protocolNumber, d.source⟩

end Dragonstone
