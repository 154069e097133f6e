import LineShell.Disk.Path
import LineShell.Text.Inspect
import LineShell.Text.LoneByte

namespace LineShell

inductive Refusal where
  | missing
  | exists
  | notDirectory
  | isDirectory
  | nameTooLong
deriving Repr, DecidableEq

namespace Refusal

def number : Refusal → Nat
  | .missing => 2
  | .exists => 17
  | .notDirectory => 20
  | .isDirectory => 21
  | .nameTooLong => 36

def reason : Refusal → Text
  | .missing => "No such file or directory"
  | .exists => "File exists"
  | .notDirectory => "Not a directory"
  | .isDirectory => "Is a directory"
  | .nameTooLong => "File name too long"

end Refusal

-- Why a text cannot be given to the machine as bytes, neither as a path nor otherwise.
inductive PathError where
  | nul
  | unencodable (run : SurrogateRun)
deriving Repr, DecidableEq

-- The bytes end at the first zero, so a text with one is refused.
def PathError.of? (text : Text) : Option PathError :=
  match text.strayRun? with
  | some run => some (.unencodable run)
  | none => if text.contains .nul then some .nul else none

def PathError.message : PathError → Text
  | .nul => "embedded null byte"
  | .unencodable run => run.message

inductive FileError where
  | refused (refusal : Refusal) (path : Path)
  | improper (error : PathError)
deriving DecidableEq

def FileError.message : FileError → Text
  | .refused refusal path =>
    "[Errno " ++ Text.ofNat refusal.number ++ Text.ofString "] " ++ refusal.reason ++
      Text.ofString ": " ++ path.text.inspect
  | .improper error => error.message

end LineShell
