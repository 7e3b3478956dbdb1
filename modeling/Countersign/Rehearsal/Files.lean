import Countersign.Bytes
import Countersign.Text.Parts

/-!
# Rehearsed files

Directories and files below one working directory. A path is walked part by part, every part but the
last having to be a directory; a path that ends in a slash names a directory.
-/

set_option autoImplicit false

namespace Countersign.Rehearsal

inductive FileFault where
  | notFound
  | taken
  | notDirectory
  | directory
  | nameTooLong
  | nulByte
  deriving DecidableEq, Repr

namespace FileFault

def reason : FileFault → String
  | .notFound => "No such file or directory (os error 2)"
  | .taken => "File exists (os error 17)"
  | .notDirectory => "Not a directory (os error 20)"
  | .directory => "Is a directory (os error 21)"
  | .nameTooLong => "File name too long (os error 36)"
  | .nulByte => "file name contained an unexpected NUL byte"

end FileFault

inductive Entry where
  | directory
  | file (content : Bytes)

abbrev Place := List String

structure Files where
  entries : List (Place × Entry)

namespace Files

def none : Files := ⟨[]⟩

def kind? (f : Files) (place : Place) : Option Entry :=
  if place = [] then some .directory else f.entries.lookup place

def put (f : Files) (place : Place) (e : Entry) : Files := ⟨(place, e) :: f.entries⟩

def isLong (name : String) : Bool := 255 < name.utf8ByteSize

def parts (path : String) : List String :=
  (Parts.split '/' path.toList).map fun part => if part = [] then "." else String.ofList part

/-- The place that parts of a path lead to, whether or not there is something. -/
def walk (f : Files) (place : Place) : List String → Except FileFault Place
  | [] => .ok place
  | name :: rest =>
    if isLong name then .error .nameTooLong
    else
      match f.kind? place with
      | Option.none => .error .notFound
      | some (.file _) => .error .notDirectory
      | some .directory =>
        if name = "." then walk f place rest
        else if name = ".." then walk f place.dropLast rest
        else walk f (place ++ [name]) rest

def place (f : Files) (path : String) : Except FileFault Place :=
  if path.toList.contains '\x00' then .error .nulByte else f.walk [] (parts path)

def probe (f : Files) (path : String) : Bool :=
  match f.place path with
  | .ok place => (f.kind? place).isSome
  | .error _ => false

def read (f : Files) (path : String) : Except FileFault Bytes := do
  match f.kind? (← f.place path) with
  | Option.none => throw .notFound
  | some .directory => throw .directory
  | some (.file content) => return content

def write (f : Files) (path : String) (content : Bytes) : Except FileFault Files :=
  match f.place path with
  | .error .notFound => .error (if path.endsWith "/" then .directory else .notFound)
  | .error e => .error e
  | .ok place =>
    match f.kind? place with
    | some .directory => .error .directory
    | _ => .ok (f.put place (.file content))

def makeDirectories (f : Files) (place : Place) : List String → Except FileFault Files
  | [] => .ok f
  | name :: rest =>
    if isLong name then .error .nameTooLong
    else if name = "." then makeDirectories f place rest
    else if name = ".." then makeDirectories f place.dropLast rest
    else
      let here := place ++ [name]
      match f.kind? here with
      | Option.none => makeDirectories (f.put here .directory) here rest
      | some .directory => makeDirectories f here rest
      | some (.file _) => .error (if rest.isEmpty then .taken else .notDirectory)

def createDirectories (f : Files) (path : String) : Except FileFault Files :=
  if path.toList.contains '\x00' then .error .nulByte else f.makeDirectories [] (parts path)

def plant (f : Files) (path : String) (content : Bytes) : Files :=
  let names := parts path
  match f.makeDirectories [] names.dropLast with
  | .error _ => f
  | .ok f =>
    match f.write path content with
    | .ok f => f
    | .error _ => f

end Files

end Countersign.Rehearsal
