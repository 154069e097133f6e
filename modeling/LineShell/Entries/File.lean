import LineShell.Disk.Access
import LineShell.Entries.Line

namespace LineShell

-- The lines of a file, each with the newline that ends it. What follows the last
-- newline is a line of its own unless it is empty.
def Bytes.lines : Bytes → List Bytes
  | [] => []
  | b :: rest =>
    if b = 0x0A then [b] :: lines rest
    else match lines rest with
      | [] => [[b]]
      | line :: more => (b :: line) :: more

namespace Entries

inductive LineReading where
  | undecodable
  | ignored
  | malformed
  | entry (key value : Text)
deriving DecidableEq

def isLineEnd (c : CodePoint) : Bool := c = .newline || c = .carriageReturn

-- Each line is decoded on its own, so that a bad one cannot hide the others.
def LineReading.ofBytes (line : Bytes) : LineReading :=
  match line.decode? with
  | none => .undecodable
  | some text =>
    let line := text.dropLastWhile isLineEnd
    if isValueLine line then
      match parseLine line with
      | none => .malformed
      | some (key, value) => .entry key value
    else .ignored

structure Tally where
  found : Entries
  skipped : Nat
  duplicates : Nat

namespace Tally

def empty : Tally := ⟨.empty, 0, 0⟩

-- The first line of a key counts; later ones are only numbered.
def add (tally : Tally) : LineReading → Tally
  | .ignored => tally
  | .undecodable => { tally with skipped := tally.skipped + 1 }
  | .malformed => { tally with skipped := tally.skipped + 1 }
  | .entry key value =>
    if tally.found.contains key then { tally with duplicates := tally.duplicates + 1 }
    else { tally with found := tally.found.insert key value }

def ofBytes (content : Bytes) : Tally :=
  (content.lines.map LineReading.ofBytes).foldl add empty

end Tally

inductive SaveError where
  | content (run : SurrogateRun)
  | file (error : FileError)
deriving DecidableEq

def SaveError.message : SaveError → Text
  | .content run => run.message
  | .file error => error.message

inductive Notice where
  | readFailed (path : Path) (error : FileError)
  | skippedLines (count : Nat) (path : Path)
  | duplicateKeys (count : Nat) (path : Path)
  | writeFailed (path : Path) (error : SaveError)
deriving DecidableEq

def Notice.text : Notice → Text
  | .readFailed path error =>
    "[ERROR] Read from " ++ path.text ++ Text.ofString " failed: " ++ error.message
  | .skippedLines count path =>
    "[WARN] Skipped " ++ Text.ofNat count ++ Text.ofString " malformed line(s) in " ++ path.text
  | .duplicateKeys count path =>
    "[WARN] Ignored " ++ Text.ofNat count ++ Text.ofString " duplicate key(s) in " ++ path.text
  | .writeFailed path error =>
    "[ERROR] Write to " ++ path.text ++ Text.ofString " failed: " ++ error.message

def Tally.notices (tally : Tally) (path : Path) : List Notice :=
  (if tally.skipped = 0 then [] else [.skippedLines tally.skipped path]) ++
    (if tally.duplicates = 0 then [] else [.duplicateKeys tally.duplicates path])

structure Loaded where
  entries : Entries
  notices : List Notice

-- The entries of the file over the defaults. A missing file is an empty one; a path
-- that is no path is the caller's mistake and the only failure.
def load (disk : Disk) (path : Path) (defaults : Entries) : Except PathError Loaded :=
  match disk.read path with
  | .ok content =>
    let tally := Tally.ofBytes content
    .ok ⟨defaults.override tally.found, tally.notices path⟩
  | .error (.improper error) => .error error
  | .error (.refused .missing _) => .ok ⟨defaults, []⟩
  | .error error => .ok ⟨defaults, [.readFailed path error]⟩

structure Saved where
  disk : Disk
  notices : List Notice

-- The whole file is encoded before it is opened, so that entries that cannot be
-- written leave the old file alone.
def save (disk : Disk) (path : Path) (entries : Entries) : Except PathError Saved :=
  match entries.serialize.encode with
  | .error run => .ok ⟨disk, [.writeFailed path (.content run)]⟩
  | .ok content =>
    match disk.write path content with
    | .ok written => .ok ⟨written, []⟩
    | .error (.improper .nul) => .error .nul
    | .error error => .ok ⟨disk, [.writeFailed path (.file error)]⟩

end Entries

end LineShell
