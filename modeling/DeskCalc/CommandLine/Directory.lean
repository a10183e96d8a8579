/-! # Reading files by name

What reading a file as text can come to, and how a name leads to a file.

* **`ReadFailure`** — why a file cannot be read as text, with its text.
* **`Reader`** — the outcome of reading, by name.
* **`Directory.walk`** — follows a path from place to place, one component after the other.
* **`Directory.read`** — the reader of a directory that holds plain files only. -/

namespace DeskCalc

/-! ## Outcomes -/

/-- **Why a file cannot be read as text.** -/
inductive ReadFailure where
  /-- There is no file of that name. -/
  | notFound
  /-- The name leads through a file as if it were a directory. -/
  | notDirectory
  /-- The name is that of a directory. -/
  | isDirectory
  /-- The name, or a component of it, has too many bytes. -/
  | nameTooLong
  /-- The bytes of the file are not UTF-8. -/
  | notText
  /-- The system reports something else. -/
  | other (reason : String)
  deriving DecidableEq, Repr

/-- The text of a failure to read. -/
def ReadFailure.message : ReadFailure → String
  | notFound => "No such file or directory (os error 2)"
  | notDirectory => "Not a directory (os error 20)"
  | isDirectory => "Is a directory (os error 21)"
  | nameTooLong => "File name too long (os error 36)"
  | notText => "stream did not contain valid UTF-8"
  | other reason => reason

/-- **The outcome of reading a file as text,** by its name. -/
abbrev Reader : Type :=
  String → Except ReadFailure String

/-- The text that bytes encode in UTF-8. -/
def decodeText (bytes : ByteArray) : Except ReadFailure String :=
  match String.fromUTF8? bytes with
  | some text => .ok text
  | none => .error .notText

/-! ## Paths -/

/-- **The components of a path:** what stands between its slashes. There is one more than there are
slashes, and some may be empty. -/
def pathComponents : List Char → List (List Char)
  | [] => [[]]
  | c :: rest =>
      if c = '/' then [] :: pathComponents rest
      else
        match pathComponents rest with
        | [] => [[c]]
        | component :: components => (c :: component) :: components

/-- The greatest number of bytes in a component. -/
def componentLimit : Nat := 255

/-- The least number of bytes that is too many for a whole path. -/
def pathLimit : Nat := 4096

/-- **Where a path has led so far.** -/
inductive Place where
  /-- The directory itself. -/
  | here
  /-- Some directory above it, of which nothing else is known. -/
  | outside
  /-- A file of the directory. -/
  | file (bytes : ByteArray)

/-- The place where a path starts: the directory itself, unless it leads down from the root. -/
def Place.start (path : List Char) : Place :=
  if path.head? = some '/' then outside else here

/-- Reads what is at a place. -/
def Place.read : Place → Except ReadFailure String
  | file bytes => decodeText bytes
  | _ => .error .isDirectory

/-! ## Directories -/

/-- **A directory of plain files.** -/
structure Directory where
  /-- The names with the bytes of their files. -/
  files : List (String × ByteArray)

namespace Directory

/-- Looks up a name at a place. -/
def lookup (d : Directory) (name : String) : Place → Except ReadFailure Place
  | .here =>
      match d.files.lookup name with
      | some bytes => .ok (.file bytes)
      | none => .error .notFound
  | .outside => .error .notFound
  | .file _ => .error .notDirectory

/-- Goes from a place by one component. The empty component and a dot stay where they are, two dots
lead upwards; none of them can follow a file. -/
def enter (d : Directory) (component : String) : Place → Except ReadFailure Place
  | .file _ => .error .notDirectory
  | place =>
      if component = "" || component = "." then .ok place
      else if component = ".." then .ok .outside
      else if componentLimit < component.utf8ByteSize then .error .nameTooLong
      else d.lookup component place

/-- **Follows a path** from a place, up to the first component that leads nowhere. -/
def walk (d : Directory) : List String → Place → Except ReadFailure Place
  | [], place => .ok place
  | component :: components, place =>
      match d.enter component place with
      | .ok next => d.walk components next
      | .error failure => .error failure

/-- **Reads a file of the directory.** The empty name is no file's. -/
def read (d : Directory) : Reader := fun name =>
  if name = "" then .error .notFound
  else if pathLimit ≤ name.utf8ByteSize then .error .nameTooLong
  else
    match d.walk ((pathComponents name.toList).map String.ofList) (Place.start name.toList) with
    | .ok place => place.read
    | .error failure => .error failure

end Directory

end DeskCalc
