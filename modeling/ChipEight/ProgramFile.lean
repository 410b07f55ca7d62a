import ChipEight.Text.Quoted

/-!
Program files: why one cannot be read, and reading from a folder whose content is known.
-/

namespace ChipEight.ProgramFile

inductive Failure where
  | missing
  | notADirectory
  | isDirectory
  | nameTooLong
  /-- A name that holds the character zero names no file at all. -/
  | zeroInName
  deriving DecidableEq

namespace Failure

/-- The number by which the system knows a failure. -/
def number : Failure → Nat
  | missing => 2
  | notADirectory => 20
  | isDirectory => 21
  | nameTooLong => 36
  | zeroInName => 22

/-- The failure of a number; a number without one counts as a missing file. -/
def ofNumber (number : Nat) : Failure :=
  ([notADirectory, isDirectory, nameTooLong, zeroInName].find? (·.number = number)).getD missing

def cause : Failure → String
  | missing => "No such file or directory"
  | notADirectory => "Not a directory"
  | isDirectory => "Is a directory"
  | nameTooLong => "File name too long"
  | zeroInName => "Invalid argument"

def message (failure : Failure) (path : String) : String :=
  s!"[Errno {failure.number}] {failure.cause}: {Quoted.quote path}"

end Failure

/-- The last part of a path. -/
def baseName (path : String) : String :=
  String.ofList (path.toList.reverse.takeWhile (· != '/')).reverse

/-- A folder: the paths of its files, without a dot or an empty part, and their bytes. -/
structure Folder where
  files : List (List String × List Int)

namespace Folder

def empty : Folder :=
  ⟨[]⟩

def parts (path : String) : List String :=
  path.splitOn "/"

def nameLimit : Nat := 255

def pathLimit : Nat := 4095

def isDirectory (folder : Folder) (path : List String) : Bool :=
  path.isEmpty || folder.files.any fun (file, _) => path.isPrefixOf file && path != file

/-- Read the file that a path leads to, part by part from a directory of the folder. A path that
climbs out of the folder finds no files. -/
def readFrom (folder : Folder) (place : List String) : List String → Except Failure (List Int)
  | [] =>
      match folder.files.lookup place with
      | some bytes => .ok bytes
      | none => .error (if folder.isDirectory place then .isDirectory else .missing)
  | part :: rest =>
      if !folder.isDirectory place then
        .error (if (folder.files.lookup place).isSome then .notADirectory else .missing)
      else if nameLimit < part.utf8ByteSize then .error .nameTooLong
      else if part == "" || part == "." then folder.readFrom place rest
      else if part == ".." then
        if place.isEmpty then empty.readFrom [] rest else folder.readFrom place.dropLast rest
      else folder.readFrom (place ++ [part]) rest

def read (folder : Folder) (path : String) : Except Failure (List Int) :=
  if path.toList.contains '\x00' then .error .zeroInName
  else if pathLimit < path.utf8ByteSize then .error .nameTooLong
  else if path.isEmpty then .error .missing
  else if "/".isPrefixOf path then empty.readFrom [] (parts path)
  else folder.readFrom [] (parts path)

end Folder

end ChipEight.ProgramFile
