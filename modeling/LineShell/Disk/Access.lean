import LineShell.Disk.Basic
import LineShell.Disk.Error

namespace LineShell.Disk

def nameLimit : Nat := 255
def pathLimit : Nat := 4095

-- Follows the names one by one. Every place that a name is looked up in has to be a
-- directory; the place reached at the end may hold anything or nothing.
def walk (disk : Disk) (location : Location) : List Text → Except Refusal Location
  | [] => .ok location
  | name :: rest =>
    match disk.find? location with
    | none => .error .missing
    | some (.file _) => .error .notDirectory
    | some .directory =>
      if name = Path.up then walk disk location.dropLast rest
      else if nameLimit < name.bytes.length then .error .nameTooLong
      else walk disk (location ++ [name.bytes]) rest

def start (disk : Disk) : Anchor → Location
  | .relative => disk.working
  | _ => []

-- The place on the disk that a path names. The bytes of the path go to the disk, so a
-- path that has none is refused before.
def locate (disk : Disk) (path : Path) : Except FileError Location :=
  match PathError.of? path.text with
  | some error => .error (.improper error)
  | none =>
    if pathLimit < path.text.bytes.length then .error (.refused .nameTooLong path)
    else match disk.walk (disk.start path.anchor) path.names with
      | .error refusal => .error (.refused refusal path)
      | .ok location => .ok location

def read (disk : Disk) (path : Path) : Except FileError Bytes :=
  match disk.locate path with
  | .error error => .error error
  | .ok location =>
    match disk.find? location with
    | none => .error (.refused .missing path)
    | some .directory => .error (.refused .isDirectory path)
    | some (.file content) => .ok content

def writable (disk : Disk) (path : Path) : Except FileError Location :=
  match disk.locate path with
  | .error error => .error error
  | .ok location =>
    match disk.find? location with
    | some .directory => .error (.refused .isDirectory path)
    | _ => .ok location

def write (disk : Disk) (path : Path) (content : Bytes) : Except FileError Disk :=
  (disk.writable path).map fun location => disk.put location (.file content)

def append (disk : Disk) (path : Path) (content : Bytes) : Except FileError Disk :=
  (disk.writable path).map fun location =>
    match disk.find? location with
    | some (.file old) => disk.put location (.file (old ++ content))
    | _ => disk.put location (.file content)

-- Whether something is there. A path that leads nowhere is only absent, unless its
-- names are longer than the disk can tell.
def present (disk : Disk) (path : Path) : Except FileError Bool :=
  match disk.locate path with
  | .error (.refused .nameTooLong path) => .error (.refused .nameTooLong path)
  | .error _ => .ok false
  | .ok location => .ok (disk.find? location).isSome

def makeDirectory (disk : Disk) (path : Path) : Except FileError Disk :=
  match disk.locate path with
  | .error error => .error error
  | .ok location =>
    match disk.find? location with
    | some _ => .error (.refused .exists path)
    | none => .ok (disk.put location .directory)

def isDirectory (disk : Disk) (path : Path) : Bool :=
  match disk.locate path with
  | .ok location => disk.find? location = some .directory
  | .error _ => false

-- Makes the directory unless it is one already. What could not be made is told beside
-- the disk that is left, for the parents made on the way stay.
def makeOrKeep (disk : Disk) (path : Path) : Option FileError × Disk :=
  match disk.makeDirectory path with
  | .ok made => (none, made)
  | .error (.refused .exists place) =>
    if disk.isDirectory path then (none, disk) else (some (.refused .exists place), disk)
  | .error error => (some error, disk)

def ensureNames (disk : Disk) (anchor : Anchor) : List Text → Option FileError × Disk
  | [] => disk.makeOrKeep ⟨anchor, []⟩
  | name :: parents =>
    let path : Path := ⟨anchor, (name :: parents).reverse⟩
    match disk.makeOrKeep path with
    | (some (.refused .missing _), _) =>
      match disk.ensureNames anchor parents with
      | (none, made) => made.makeOrKeep path
      | failed => failed
    | outcome => outcome

def ensureDirectory (disk : Disk) (path : Path) : Option FileError × Disk :=
  disk.ensureNames path.anchor path.names.reverse

end LineShell.Disk
