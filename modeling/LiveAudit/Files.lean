import LiveAudit.Table
import LiveAudit.Text.Utf8

/-!
# Files

A tree of folders and files, and how a path leads into it. A path is followed name by name from the
working folder, which is the root of the tree: `.` stays, `..` goes up, and every name before the
last must be that of a folder. The last one need not be there yet.

Each operation on the tree either succeeds or leaves it as it was and tells the fault.
-/

namespace LiveAudit

inductive FileFault where
  | missing
  | alreadyThere
  | notFolder
  | isFolder
  | nameTooLong
  /-- The path holds a character that no name can have. -/
  | unusableName
  /-- The bytes are no UTF-8. -/
  | notText
  /-- A fault of the medium, in its own words. -/
  | medium (text : String)
deriving DecidableEq, Repr

def FileFault.message : FileFault → String
  | .missing => "No such file or directory (os error 2)"
  | .alreadyThere => "File exists (os error 17)"
  | .notFolder => "Not a directory (os error 20)"
  | .isFolder => "Is a directory (os error 21)"
  | .nameTooLong => "File name too long (os error 36)"
  | .unusableName => "file name contained an unexpected NUL byte"
  | .notText => "stream did not contain valid UTF-8"
  | .medium text => text

/-! ### Paths -/

namespace Path

/-- Names of a path in their order. -/
def names (path : String) : List String :=
  (path.splitOn "/").filter (· ≠ "")

/-- Whether a path ends in a slash, so that only a folder can be meant. -/
def endsInSlash (path : String) : Bool :=
  path.toList.getLast? = some '/'

/-- Path of a name in a folder; an absolute path stands for itself. -/
def join (folder name : String) : String :=
  if name.toList.head? = some '/' then name
  else if folder = "" ∨ endsInSlash folder then folder ++ name
  else folder ++ "/" ++ name

/-- Path of the folder that a path is in, without looking at `.` and slashes at the end; `none` for
a path without names. -/
def parent? (path : String) : Option String :=
  let isAbsolute := path.toList.head? = some '/'
  let all := names path
  let kept := match all with
    | [] => []
    | first :: rest =>
      let rest := rest.filter (· ≠ ".")
      if first = "." ∧ isAbsolute then rest else first :: rest
  if kept.isEmpty then none
  else some ((if isAbsolute then "/" else "") ++ "/".intercalate kept.dropLast)

end Path

/-! ### The tree -/

/-- Names from the root down. -/
abbrev Location : Type := List String

inductive Node where
  | folder
  | file (bytes : List UInt8)
deriving DecidableEq, Repr

/-- What is at each location but the root, which is a folder. -/
structure Files where
  nodes : Table Location Node

namespace Files

def empty : Files :=
  ⟨.empty⟩

def node? (f : Files) (place : Location) : Option Node :=
  if place = [] then some .folder else f.nodes.find? place

def put (f : Files) (place : Location) (n : Node) : Files :=
  ⟨f.nodes.put place n⟩

/-- Bytes in the longest name. -/
def maxName : Nat := 255

/-- Bytes in the longest path. -/
def maxPath : Nat := 4095

/-- Follows names from a folder to a location that is in a folder. -/
def follow (f : Files) : Location → List String → Except FileFault Location
  | place, [] => .ok place
  | place, name :: rest =>
    if name = "." then f.follow place rest
    else if name = ".." then f.follow place.dropLast rest
    else if maxName < name.utf8ByteSize then .error .nameTooLong
    else
      let inner := place ++ [name]
      match rest with
      | [] => .ok inner
      | next :: more =>
        match f.node? inner with
        | none => .error .missing
        | some (.file _) => .error .notFolder
        | some .folder => f.follow inner (next :: more)

/-- Location that a path leads to. -/
def locate (f : Files) (path : String) : Except FileFault Location :=
  if path.toList.contains '\x00' then .error .unusableName
  else if maxPath < path.utf8ByteSize then .error .nameTooLong
  else if path = "" then .error .missing
  else f.follow [] (Path.names path)

/-! ### Looking -/

/-- What a path leads to. -/
def look (f : Files) (path : String) : Except FileFault Node :=
  match f.locate path with
  | .error e => .error e
  | .ok place =>
    match f.node? place with
    | none => .error .missing
    | some (.file bytes) => if Path.endsInSlash path then .error .notFolder else .ok (.file bytes)
    | some .folder => .ok .folder

def isThere (f : Files) (path : String) : Bool :=
  (f.look path).isOk

def isFolder (f : Files) (path : String) : Bool :=
  match f.look path with
  | .ok .folder => true
  | _ => false

/-- Size that a folder is said to have. -/
def folderSize : Nat := 4096

/-- Bytes of what is at a path, if anything is. -/
def size? (f : Files) (path : String) : Option Nat :=
  match f.look path with
  | .ok (.file bytes) => some bytes.length
  | .ok .folder => some folderSize
  | .error _ => none

def read (f : Files) (path : String) : Except FileFault (List UInt8) :=
  match f.look path with
  | .ok (.file bytes) => .ok bytes
  | .ok .folder => .error .isFolder
  | .error e => .error e

/-! ### Changing -/

/-- Changes the bytes of a file, a new one if there was none. -/
def change (f : Files) (path : String) (bytes : List UInt8 → List UInt8) :
    Except FileFault Files :=
  match f.locate path with
  | .error e => .error e
  | .ok place =>
    if Path.endsInSlash path then .error .isFolder
    else match f.node? place with
      | some .folder => .error .isFolder
      | some (.file old) => .ok (f.put place (.file (bytes old)))
      | none => .ok (f.put place (.file (bytes [])))

/-- Makes the file at a path hold these bytes and no others. -/
def write (f : Files) (path : String) (bytes : List UInt8) : Except FileFault Files :=
  f.change path fun _ => bytes

/-- Puts bytes behind those of the file at a path. -/
def append (f : Files) (path : String) (bytes : List UInt8) : Except FileFault Files :=
  f.change path fun old => old ++ bytes

/-- Makes a folder where nothing is. -/
def makeFolder (f : Files) (path : String) : Except FileFault Files :=
  match f.locate path with
  | .error e => .error e
  | .ok place =>
    match f.node? place with
    | some _ => .error .alreadyThere
    | none => .ok (f.put place .folder)

/-- Makes a folder, or finds that there is one. -/
def haveFolder (f : Files) (path : String) : Except FileFault Files :=
  match f.makeFolder path with
  | .ok g => .ok g
  | .error e => if f.isFolder path then .ok f else .error e

/-- Makes the folders with these names, the innermost first, one in the other. -/
def makeFoldersFrom (start : String) (f : Files) : List String → Except FileFault Files
  | [] => .ok f
  | name :: outer =>
    let path := start ++ "/".intercalate (name :: outer).reverse
    match f.haveFolder path with
    | .error .missing =>
      match f.makeFoldersFrom start outer with
      | .ok g => g.haveFolder path
      | .error e => .error e
    | result => result

/-- Makes a folder and those around it that are missing. -/
def makeFolders (f : Files) (path : String) : Except FileFault Files :=
  f.makeFoldersFrom (if path.toList.head? = some '/' then "/" else "") (Path.names path).reverse

/-! ### Laws -/

theorem node?_put_self {f : Files} {place : Location} (n : Node) (h : place ≠ []) :
    (f.put place n).node? place = some n := by
  simp [node?, put, h]

theorem node?_put_of_ne {f : Files} {place other : Location} (n : Node) (h : other ≠ place) :
    (f.put place n).node? other = f.node? other := by
  simp [node?, put, Table.find?_put_of_ne _ _ h]

end Files

end LiveAudit
