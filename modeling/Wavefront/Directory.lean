import Wavefront.Text.Cut

/-!
# Reading files by path

A `Directory` holds files, some of them in directories of its own, and nothing else. A path is
walked from it name by name: an empty name and a point stay where they are, two points go up. What
lies outside the directory is not known, save that the directories on the way up are there.

A path leads to a file, to a directory, or nowhere; only a file can be read, and only as a text.
-/

namespace Wavefront

/-- Why a file cannot be read as a text. -/
inductive ReadFailure
  | missing
  | notDirectory
  | isDirectory
  | nameTooLong
  | notText
deriving DecidableEq

/-- The text of a read failure. -/
def ReadFailure.message : ReadFailure → String
  | missing => "No such file or directory (os error 2)"
  | notDirectory => "Not a directory (os error 20)"
  | isDirectory => "Is a directory (os error 21)"
  | nameTooLong => "File name too long (os error 36)"
  | notText => "stream did not contain valid UTF-8"

/-- A directory with nothing but files in it, each with the names that lead to it. -/
structure Directory where
  files : List (List String × ByteArray)

namespace Directory

/-- The names of a path between its strokes. -/
def names (path : String) : List String := (Text.cut '/' path.toList).map String.ofList

/-- A name that leads nowhere else. -/
def stays (name : String) : Bool := name == "" || name == "."

/-- A directory with one file. -/
def ofFile (path : String) (bytes : ByteArray) : Directory :=
  ⟨[((names path).filter fun name => !stays name, bytes)]⟩

/-- The most bytes of a name. -/
def nameLimit : Nat := 255

/-- The bytes from which on a path is too long. -/
def pathLimit : Nat := 4096

/-- The file that names lead to, from the directory at `place`; from a directory outside if there is
no place. -/
def walk (d : Directory) : (place : Option (List String)) → List String →
    Except ReadFailure ByteArray
  | _, [] => .error .isDirectory
  | place, name :: rest =>
    if stays name then walk d place rest
    else if name = ".." then
      walk d (place.bind fun names => if names.isEmpty then none else some names.dropLast) rest
    else if nameLimit < name.utf8ByteSize then .error .nameTooLong
    else
      match place with
      | none => .error .missing
      | some names =>
        let here := names ++ [name]
        match d.files.lookup here with
        | some bytes => if rest.isEmpty then .ok bytes else .error .notDirectory
        | none =>
          if d.files.any fun file => here.isPrefixOf file.1 then walk d (some here) rest
          else .error .missing

/-- The bytes of the file at a path. An empty path leads nowhere; one that starts with a stroke
starts outside. -/
def readBytes (d : Directory) (path : String) : Except ReadFailure ByteArray :=
  if path.isEmpty then .error .missing
  else if pathLimit ≤ path.utf8ByteSize then .error .nameTooLong
  else d.walk (if path.startsWith "/" then none else some []) (names path)

/-- The text of the file at a path. -/
def read (d : Directory) (path : String) : Except ReadFailure String := do
  match String.fromUTF8? (← d.readBytes path) with
  | some text => return text
  | none => throw .notText

end Directory

end Wavefront
