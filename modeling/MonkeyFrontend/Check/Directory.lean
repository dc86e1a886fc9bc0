/-! # Directories

The files of one directory, by name, each with its bytes.  A path is followed from the
directory part by part; it reaches a file of the directory when nothing but steps to the
directory itself stands before the name.
-/
namespace MonkeyFrontend

/-- Why a path gives no file. -/
inductive PathError where
  | nullCharacter
  | noSuchFile
  | isDirectory
  | notDirectory
deriving DecidableEq, Repr

/-- The files of a directory, each name at most once. -/
structure Directory where
  files : List (String × ByteArray)

namespace Directory

/-- The parts of a path between its slashes. -/
def parts : List Char → List (List Char)
  | [] => [[]]
  | c :: rest =>
    match c == '/', parts rest with
    | true, ps => [] :: ps
    | false, [] => [[c]]
    | false, p :: ps => (c :: p) :: ps

/-- Whether a part of a path only leads from one directory to another. -/
def isStep (part : List Char) : Bool := part == [] || part == ['.'] || part == ['.', '.']

/-- What is wrong with a path once it has left the directory: no file outside is known. -/
def outside (rest : List (List Char)) : PathError :=
  if rest.all isStep then .isDirectory else .noSuchFile

/-- Follows the parts of a path from the directory to the name of a file, there or not.  A
slash behind the last name makes it the name of a directory. -/
def follow (d : Directory) : List (List Char) → Except PathError String
  | [] => .error .isDirectory
  | part :: rest =>
    if part == [] || part == ['.'] then d.follow rest
    else if part == ['.', '.'] then .error (outside rest)
    else if rest.isEmpty then .ok (String.ofList part)
    else if rest.all List.isEmpty then .error .isDirectory
    else if (d.files.lookup (String.ofList part)).isSome then .error .notDirectory
    else .error .noSuchFile

/-- The name of the file that a path means.  A path with a leading slash starts outside. -/
def name (d : Directory) (path : String) : Except PathError String :=
  if path.toList.contains '\x00' then .error .nullCharacter
  else if path.toList.head? = some '/' then .error (outside (parts path.toList))
  else d.follow (parts path.toList)

/-- The bytes of the file that a path means. -/
def read (d : Directory) (path : String) : Except PathError ByteArray :=
  match d.name path with
  | .error e => .error e
  | .ok name =>
    match d.files.lookup name with
    | none => .error .noSuchFile
    | some bytes => .ok bytes

/-- Puts bytes under a name, in place of the file that has it or as a new file. -/
def put (name : String) (bytes : ByteArray) :
    List (String × ByteArray) → List (String × ByteArray)
  | [] => [(name, bytes)]
  | (other, old) :: rest =>
    if other = name then (name, bytes) :: rest else (other, old) :: put name bytes rest

/-- Writes the file that a path means. -/
def write (d : Directory) (path : String) (bytes : ByteArray) : Except PathError Directory :=
  match d.name path with
  | .error e => .error e
  | .ok name => .ok ⟨put name bytes d.files⟩

end Directory

end MonkeyFrontend
