/-
# A directory of files

The files that a program works on, under the names they have seen from the working directory.  A file
outside of it can be reached only under the very path that is its name here.  Reading and writing
fail for the reasons for which a file system refuses them, and a failed write changes nothing.
-/

import Dragonstone.Files.Path
import Dragonstone.KeyMap
import Dragonstone.Text.Quoted

namespace Dragonstone

/-- What a name in a directory stands for. -/
inductive Node where
  | file (bytes : List UInt8)
  | folder
  deriving DecidableEq, Repr

/-- The nodes of a directory under their names, with slashes between components. -/
abbrev Directory := KeyMap Node

/-- Why a file cannot be read or written. -/
inductive FileError where
  | notFound (path : Path)
  | isFolder (path : Path)
  | notAFolder (path : Path)
  | nameTooLong (path : Path)
  /-- The path holds a null character. -/
  | nullInName
  deriving DecidableEq, Repr

def FileError.message (e : FileError) : String :=
  let quoted (p : Path) := String.ofList (Quoted.encode p.text)
  match e with
  | .notFound p => "[Errno 2] No such file or directory: " ++ quoted p
  | .isFolder p => "[Errno 21] Is a directory: " ++ quoted p
  | .notAFolder p => "[Errno 20] Not a directory: " ++ quoted p
  | .nameTooLong p => "[Errno 36] File name too long: " ++ quoted p
  | .nullInName => "embedded null byte"

namespace Directory

/-- The key of a list of components. -/
def key (parts : List Text) : String :=
  String.ofList (['/'].intercalate parts)

def nodeAt? (d : Directory) (parts : List Text) : Option Node :=
  if parts.isEmpty then some .folder
  else
    match d.get? (key parts) with
    | some node => some node
    | none =>
      let inside := (key parts ++ "/").toList
      if d.keys.any fun k => inside.isPrefixOf k.toList then some .folder else none

/-- The largest number of bytes in a component of a path. -/
def longestName : Nat := 255

/-- The largest number of bytes in a path. -/
def longestPath : Nat := 4095

def exceeds (allowed : Nat) (s : Text) : Bool :=
  allowed < (Utf8.encode s).length

/-- The place of a path that leaves the working directory, which must be a name as it stands. -/
def outside (d : Directory) (p : Path) : Except FileError (List Text) :=
  if d.contains p.toString then .ok [p.text] else .error (.notFound p)

/-- Walk down to a path.  Gives the components of the place it denotes. -/
def walk (d : Directory) (p : Path) (done : List Text) :
    List Text → Except FileError (List Text)
  | [] => .ok done
  | part :: rest =>
    match d.nodeAt? done with
    | some .folder =>
      if exceeds longestName part then .error (.nameTooLong p)
      else if part != ['.', '.'] then d.walk p (done ++ [part]) rest
      else if done.isEmpty && !rest.isEmpty then d.outside p
      else d.walk p done.dropLast rest
    | some (.file _) => .error (.notAFolder p)
    | none => .error (.notFound p)

/-- The components of the place that a path denotes. -/
def locate (d : Directory) (p : Path) : Except FileError (List Text) :=
  if p.hasNull then .error .nullInName
  else if exceeds longestPath p.text then .error (.nameTooLong p)
  else if p.root.isEmpty then d.walk p [] p.parts
  else if p.parts.isEmpty then .error (.isFolder p)
  else d.outside p

def read (d : Directory) (p : Path) : Except FileError (List UInt8) := do
  let parts ← d.locate p
  match d.nodeAt? parts with
  | some (.file bytes) => return bytes
  | some .folder => throw (.isFolder p)
  | none => throw (.notFound p)

/-- The directory with the bytes written to a file, which is made if its folder exists. -/
def write (d : Directory) (p : Path) (bytes : List UInt8) : Except FileError Directory := do
  let parts ← d.locate p
  match d.nodeAt? parts with
  | some .folder => throw (.isFolder p)
  | some (.file _) => return d.put (key parts) (.file bytes)
  | none => return d.put (key parts) (.file bytes)

end Directory

end Dragonstone
