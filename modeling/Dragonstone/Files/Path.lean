/-
# Paths and uris

A path is a list of components, absolute or relative to the working directory.  Empty components and
single dots say nothing and are dropped; double dots are kept, and taken away only when a path is
resolved.
-/

import Dragonstone.Text.Utf8

namespace Dragonstone

structure Path where
  /-- What stands in front of the components: nothing, or the root. -/
  root : Text
  parts : List Text
  deriving DecidableEq, Repr

namespace Path

/-- The components between slashes. -/
def components (s : Text) : List Text :=
  (s.splitOn '/').filter fun part => !part.isEmpty && part != ['.']

/-- The root of a path: exactly two slashes are a root of their own. -/
def rootOf : Text → Text
  | '/' :: '/' :: '/' :: _ => ['/']
  | '/' :: '/' :: _ => ['/', '/']
  | '/' :: _ => ['/']
  | _ => []

def ofText (s : Text) : Path :=
  ⟨rootOf s, components s⟩

def ofString (s : String) : Path :=
  ofText s.toList

/-- A path as it is written; the path without components is a dot. -/
def text (p : Path) : Text :=
  let body := ['/'].intercalate p.parts
  if p.root.isEmpty && p.parts.isEmpty then ['.'] else p.root ++ body

def toString (p : Path) : String :=
  String.ofList p.text

def name (p : Path) : Text :=
  p.parts.getLast?.getD []

def parent (p : Path) : Path :=
  { p with parts := p.parts.dropLast }

/-- The path is a single name, which stands for something in the working directory itself. -/
def isLocalName (p : Path) : Bool :=
  p.root.isEmpty &&
    match p.parts with
    | [part] => part != ['.', '.']
    | _ => false

/-- The path holds a null character, which no file system takes. -/
def hasNull (p : Path) : Bool :=
  p.text.contains '\x00'

/-- The components of a path with each double dot taking away the component before it. -/
def resolveParts (parts : List Text) : List Text :=
  parts.foldl (fun done part => if part == ['.', '.'] then done.dropLast else done ++ [part]) []

/-- The resolved components, seen from the root of all files.  `base` is the working directory. -/
def resolved (base : List Text) (p : Path) : List Text :=
  resolveParts (if p.root.isEmpty then base ++ p.parts else p.parts)

/-- A byte that a uri shows as itself. -/
def isUriByte (b : UInt8) : Bool :=
  let c := Char.ofNat b.toNat
  c.isAlphanum || c == '/' || c == '_' || c == '.' || c == '-' || c == '~'

def uriByte (b : UInt8) : Text :=
  if isUriByte b then [Char.ofNat b.toNat]
  else ['%', (Nat.digitChar (b.toNat / 16)).toUpper, (Nat.digitChar (b.toNat % 16)).toUpper]

def uri (base : List Text) (p : Path) : String :=
  let whole : Text := (p.resolved base).flatMap fun part => '/' :: part
  let shown := if whole.isEmpty then ['/'] else whole
  String.ofList ("file://".toList ++ (Utf8.encode shown).flatMap uriByte)

end Path

end Dragonstone
