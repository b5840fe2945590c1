/-!
# Files

What can be read is given as a function from paths to texts, so that reading a file is an ordinary
operation with an answer.
-/
namespace DocSelect

inductive FileError where
  | notFound
  | notDirectory
  | isDirectory
  | nameTooLong
  | nulInPath
  /-- the content is not text -/
  | notText
  /-- the path has not been looked up -/
  | unknown (path : String)
  | other (text : String)
  deriving DecidableEq

namespace FileError

def message : FileError → String
  | notFound => "No such file or directory (os error 2)"
  | notDirectory => "Not a directory (os error 20)"
  | isDirectory => "Is a directory (os error 21)"
  | nameTooLong => "File name too long (os error 36)"
  | nulInPath => "file name contained an unexpected NUL byte"
  | notText => "stream did not contain valid UTF-8"
  | unknown path => "not looked up: " ++ path
  | other text => text

end FileError

abbrev FileSystem := String → Except FileError String

namespace FileSystem

inductive Location where
  | root
  /-- the directory of devices -/
  | devices
  | nullDevice
  /-- the directory that paths without a leading slash start from, and those above it -/
  | here
  deriving DecidableEq

/-- Follows one name of a path. An empty name, between two slashes, leads nowhere else. -/
def follow (place : Location) (name : String) : Except FileError Location :=
  if place = .nullDevice then .error .notDirectory
  else if name = "" ∨ name = "." then .ok place
  else if name = ".." then .ok (if place = .devices then .root else place)
  else if 255 < name.utf8ByteSize then .error .nameTooLong
  else
    match place, name with
    | .root, "dev" => .ok .devices
    | .devices, "null" => .ok .nullDevice
    | _, _ => .error .notFound

def locate (path : String) : Except FileError Location :=
  match path.splitOn "/" with
  | [""] => .error .notFound
  | "" :: names => names.foldlM follow .root
  | names => names.foldlM follow .here

def bare : FileSystem := fun path =>
  if '\x00' ∈ path.toList then .error .nulInPath
  else if 4096 ≤ path.utf8ByteSize then .error .nameTooLong
  else do
    match (← locate path) with
    | .nullDevice => return ""
    | _ => throw .isDirectory

end FileSystem

end DocSelect
