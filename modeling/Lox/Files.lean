import Lox.Text.Quoted

/-!
Files by path: what reading a path can come to, and a folder of files held in memory.
-/

set_option autoImplicit false

namespace Lox

/-- Why a path cannot be read. -/
inductive ReadError where
  | notFound
  /-- Something is looked for inside a file. -/
  | notFolder
  | isFolder
  /-- The path or a name in it is longer than paths or names can be. -/
  | tooLong
  /-- Any other reason, with its name, its number and its text. -/
  | other (name : String) (number : Nat) (text : String)
  deriving DecidableEq

/-- The message for a path that cannot be read. -/
def ReadError.message (error : ReadError) (path : String) : String :=
  let (name, number, text) := match error with
    | .notFound => ("FileNotFoundError", 2, "No such file or directory")
    | .notFolder => ("NotADirectoryError", 20, "Not a directory")
    | .isFolder => ("IsADirectoryError", 21, "Is a directory")
    | .tooLong => ("OSError", 36, "File name too long")
    | .other name number text => (name, number, text)
  name ++ ": [Errno " ++ .ofList (Nat.toDigits 10 number) ++ "] " ++ text ++ ": "
    ++ Text.quoted path

/-- What a folder holds under a name. -/
inductive Folder.Entry where
  | file (octets : List UInt8)
  | folder
  deriving DecidableEq

/-- Files and folders by their path from one folder, given as the names along it. -/
structure Folder where
  entries : List (List String × Folder.Entry)

namespace Folder

/-- The names along a path, where the first name begins with `begun`, read backwards. -/
def namesAfter (begun : List Char) : List Char → List String
  | [] => [.ofList begun.reverse]
  | '/' :: rest => .ofList begun.reverse :: namesAfter [] rest
  | char :: rest => namesAfter (char :: begun) rest

/-- The names along a path, which are separated by slashes. -/
def pathNames (path : String) : List String :=
  namesAfter [] path.toList

def ofEntries (entries : List (String × Entry)) : Folder :=
  ⟨entries.map fun (path, entry) => (pathNames path, entry)⟩

/-- What stands at a place, given by the names that lead there. A place on the way to an entry
is a folder. -/
def find? (folder : Folder) (place : List String) : Option Entry :=
  match folder.entries.lookup place with
  | some entry => some entry
  | none => if folder.entries.any (place.isPrefixOf ·.1) then some .folder else none

/-- The size of the longest path, in octets. -/
def longestPath : Nat :=
  4095

/-- The size of the longest name in a path, in octets. -/
def longestName : Nat :=
  255

/-- Follows names from a folder inside this one, or from one as many steps above it. A name is
looked at only once all before it are found. -/
def follow (folder : Folder) (above : Nat) (place : List String) :
    List String → Except ReadError (List UInt8)
  | [] => .error .isFolder
  | name :: rest =>
    if name = "" ∨ name = "." then folder.follow above place rest
    else if name = ".." then
      if place.isEmpty then folder.follow (above + 1) place rest
      else folder.follow above place.dropLast rest
    else if name.utf8ByteSize > longestName then .error .tooLong
    else if above > 0 then .error .notFound
    else
      match folder.find? (place ++ [name]) with
      | none => .error .notFound
      | some .folder => folder.follow above (place ++ [name]) rest
      | some (.file octets) => if rest.isEmpty then .ok octets else .error .notFolder

/-- The content of the file at a path. Nothing but folders is known outside of this folder. -/
def read (folder : Folder) (path : String) : Except ReadError (List UInt8) :=
  if path.utf8ByteSize > longestPath then .error .tooLong
  else
    match path.toList with
    | [] => .error .notFound
    | first :: _ => folder.follow (if first = '/' then 1 else 0) [] (pathNames path)

end Folder

end Lox
