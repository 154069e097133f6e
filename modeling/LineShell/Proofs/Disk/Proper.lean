import LineShell.Proofs.Disk.Access
import LineShell.Proofs.Text.Basic

namespace LineShell

namespace Text

-- A surrogate that stands for no byte. With one in it a text cannot be encoded for the machine.
def Stray (text : Text) : Prop := ∃ c ∈ text, c.isSurrogate = true ∧ ¬ c.isLoneByte = true

instance (text : Text) : Decidable text.Stray :=
  List.decidableBEx (fun c : CodePoint => c.isSurrogate = true ∧ ¬ c.isLoneByte = true) text

theorem strayRun?_eq_none {text : Text} : text.strayRun? = none ↔ ¬ text.Stray := by
  unfold strayRun?
  generalize 0 = position
  induction text generalizing position with
  | nil => simp [strayRun?.scan, Stray]
  | cons c rest ih =>
    have cons : Stray (c :: rest) ↔ (c.isSurrogate = true ∧ ¬ c.isLoneByte = true) ∨ Stray rest := by
      simp [Stray]
    rw [strayRun?.scan, cons]
    by_cases stray : c.isSurrogate = true ∧ ¬ c.isLoneByte = true
    · simp [stray]
    · rw [if_neg stray, ih (position + 1), or_iff_right stray]

theorem not_stray_of_encodable {text : Text} (encodable : text.Encodable) : ¬ text.Stray := by
  rintro ⟨c, inside, surrogate, _⟩
  exact absurd surrogate (Bool.eq_false_iff.mp (encodable c inside))

end Text

-- A zero is looked for in a text only that could be encoded.
theorem PathError.of?_nul {text : Text} : of? text = some .nul ↔ .nul ∈ text ∧ ¬ text.Stray := by
  rw [of?, ← Text.strayRun?_eq_none]
  cases text.strayRun? <;> simp

-- A path that the machine can be asked for, whether anything is there or not.
def Path.Proper (path : Path) : Prop := PathError.of? path.text = none

def Path.Clean (path : Path) : Prop := .nul ∉ path.text ∧ ¬ path.text.Stray

theorem Path.proper_iff {path : Path} : path.Proper ↔ path.Clean := by
  rw [Proper, PathError.of?, Clean, ← Text.strayRun?_eq_none]
  cases path.text.strayRun? <;> simp

theorem Path.proper_of_encodable {path : Path} (encodable : path.text.Encodable)
    (clean : .nul ∉ path.text) : path.Proper :=
  proper_iff.mpr ⟨clean, Text.not_stray_of_encodable encodable⟩

namespace Disk

variable {disk : Disk} {path : Path} {error : PathError}

-- Whatever is on the disk, it is the path alone that can be no path.
theorem locate_improper :
    disk.locate path = .error (.improper error) ↔ PathError.of? path.text = some error := by
  unfold locate
  cases PathError.of? path.text with
  | some other => simp
  | none =>
    dsimp only
    split
    · simp
    · split <;> simp

theorem read_improper :
    disk.read path = .error (.improper error) ↔ PathError.of? path.text = some error := by
  rw [← @locate_improper disk, read]
  cases disk.locate path with
  | error other => simp
  | ok location =>
    dsimp only
    split <;> simp

theorem writable_improper :
    disk.writable path = .error (.improper error) ↔ PathError.of? path.text = some error := by
  rw [← @locate_improper disk, writable]
  cases disk.locate path with
  | error other => simp
  | ok location =>
    dsimp only
    split <;> simp

theorem write_improper {content : Bytes} :
    disk.write path content = .error (.improper error) ↔ PathError.of? path.text = some error := by
  rw [← @writable_improper disk, write]
  cases disk.writable path <;> simp [Except.map]

theorem proper_of_writable {location : Location} (opens : disk.writable path = .ok location) : path.Proper := by
  have located := (writable_exact opens).1
  unfold locate at located
  split at located
  · cases located
  · assumption

end Disk

end LineShell
