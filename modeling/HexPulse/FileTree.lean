import HexPulse.FileTree.Path
import HexPulse.Table

/-!
# HexPulse — FileTree

Files in folders, as a value.  A place is the list of names on the way to it, from the folder
that the program runs in; the outermost folder is a name of its own.  A path leads to a place if
every part of it but the last is a folder.
-/

namespace HexPulse

/-- Why a file or a folder cannot be had. -/
inductive FileError where
  /-- the way leads through something that is not there -/
  | missing
  /-- the place is taken -/
  | taken
  /-- the place is a folder -/
  | isFolder
  /-- the way leads through a file -/
  | notFolder
  /-- a name or the whole path is too long -/
  | tooLong
  /-- the path holds a null character -/
  | null
  /-- the path holds half a character -/
  | halfCharacter
  deriving DecidableEq, Repr

/-- The text shown for a file or a folder that cannot be had. -/
def FileError.message : FileError → String
  | .missing => "No such file or directory"
  | .taken => "File exists"
  | .isFolder => "Is a directory"
  | .notFolder => "Not a directory"
  | .tooLong => "File name too long"
  | .null => "embedded null byte"
  | .halfCharacter => "surrogates not allowed"

/-- What is done to files and folders. -/
inductive FileAction where
  /-- makes a folder and those above it; the folder itself may be there already or not -/
  | makeFolder (path : String) (mayExist : Bool)
  | write (path text : String)
  deriving DecidableEq, Repr

/-- The path of what is made or written. -/
def FileAction.path : FileAction → String
  | .makeFolder path _ => path
  | .write path _ => path

/-- Files with their texts, and folders, by their places. -/
structure FileTree where
  files : Table (List String) String
  folders : List (List String)
  deriving Repr

namespace FileTree

/-- The outermost folder. -/
def outermost : String := "/"

/-- No files; the folder that the program runs in, and the outermost one. -/
def empty : FileTree := ⟨.empty, [[], [outermost]]⟩

/-- The most bytes of a name. -/
def longestName : Nat := 255

/-- The most bytes of a path. -/
def longestPath : Nat := 4095

/-- The place above a place. -/
def above (place : List String) : List String :=
  if place = [outermost] then place else place.dropLast

/-- Goes on from a place by names. -/
def walk (t : FileTree) : List String → List String → Except FileError (List String)
  | place, [] => .ok place
  | place, name :: names =>
    if t.files.contains place then .error .notFolder
    else if !t.folders.contains place then .error .missing
    else if longestName < name.utf8ByteSize then .error .tooLong
    else t.walk (if name = ".." then above place else place ++ [name]) names

/-- The place that a path starts from. -/
def start (path : String) : List String := if (Path.root path).isEmpty then [] else [outermost]

/-- The path is one that can be asked for. -/
def checked (path : String) : Except FileError Unit :=
  if path.toList.contains (Char.ofNat 0) then .error .null
  else if longestPath < path.utf8ByteSize then .error .tooLong
  else .ok ()

/-- The place that a path leads to. -/
def locate (t : FileTree) (path : String) : Except FileError (List String) := do
  checked path
  t.walk (start path) (Path.parts path)

/-- The text of a file. -/
def read? (t : FileTree) (path : String) : Option String :=
  match t.locate path with
  | .ok place => t.files.get? place
  | .error _ => none

/-- Writes a file. -/
def write (t : FileTree) (path text : String) : Except FileError FileTree := do
  let place ← t.locate path
  if t.folders.contains place then .error .isFolder
  else .ok { t with files := t.files.insert place text }

/-- Makes one folder. -/
def makeOne (t : FileTree) (start names : List String) : Except FileError FileTree := do
  let place ← t.walk start names
  if t.folders.contains place || t.files.contains place then .error .taken
  else .ok { t with folders := place :: t.folders }

/-- The tree in spite of an error, if there is a folder that may be there. -/
def settle (t : FileTree) (start names : List String) (mayExist : Bool) (e : FileError) :
    Except FileError FileTree :=
  match t.walk start names with
  | .ok place => if mayExist && t.folders.contains place then .ok t else .error e
  | .error _ => .error e

/-- Makes a folder and those above it; its names are given from the last to the first. -/
def makeAll (start : List String) :
    Bool → List String → FileTree → Except FileError FileTree
  | mayExist, [], t => t.settle start [] mayExist .taken
  | mayExist, name :: names, t =>
    let way := (name :: names).reverse
    match t.makeOne start way with
    | .ok t => .ok t
    | .error .missing => do
      let t ← makeAll start true names t
      match t.makeOne start way with
      | .ok t => .ok t
      | .error e => t.settle start way mayExist e
    | .error e => t.settle start way mayExist e

/-- Makes a folder and those above it. -/
def makeFolder (t : FileTree) (path : String) (mayExist : Bool) : Except FileError FileTree := do
  checked path
  makeAll (start path) mayExist (Path.parts path).reverse t

/-- Does what is asked for. -/
def perform (t : FileTree) : FileAction → Except FileError FileTree
  | .makeFolder path mayExist => t.makeFolder path mayExist
  | .write path text => t.write path text

/-- The tree with a folder and some files in it, and the folders that they need. -/
def ofFiles (folder : String) (files : List (String × String)) : FileTree :=
  let add (t : FileTree) (action : FileAction) : FileTree :=
    match t.perform action with
    | .ok t => t
    | .error _ => t
  files.foldl
    (fun t (name, text) =>
      let path := Path.join folder name
      add (add t (.makeFolder (Path.parent path) true)) (.write path text))
    (add empty (.makeFolder folder true))

end FileTree

end HexPulse
