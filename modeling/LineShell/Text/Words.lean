import LineShell.Text.Basic

namespace LineShell.Text

def wordDelimiters : Text := " ,.;:="

-- The next word and what follows it. Delimiters in front are skipped; the one
-- that ends the word stays in front of the rest. Nothing but delimiters has no word.
def nextWord? (delimiters text : Text) : Option (Text × Text) :=
  let body := text.dropWhile delimiters.contains
  let word := body.takeWhile (!delimiters.contains ·)
  if word = [] then none else some (word, body.dropWhile (!delimiters.contains ·))

theorem nextWord?_shorter {delimiters text word rest : Text}
    (found : nextWord? delimiters text = some (word, rest)) : rest.length < text.length := by
  simp only [nextWord?] at found
  split at found
  · cases found
  · rename_i present
    obtain ⟨rfl, rfl⟩ := Prod.mk.inj (Option.some.inj found)
    have whole := congrArg List.length
      (@List.takeWhile_append_dropWhile _ (!delimiters.contains ·) (text.dropWhile delimiters.contains))
    have body : (text.dropWhile delimiters.contains).length ≤ text.length :=
      (List.dropWhile_sublist _).length_le
    have positive := List.length_pos_iff.mpr present
    rw [List.length_append] at whole
    omega

def words (delimiters text : Text) : List Text :=
  match _found : nextWord? delimiters text with
  | none => []
  | some (word, rest) => word :: words delimiters rest
termination_by text.length
decreasing_by exact nextWord?_shorter _found

-- What stands before and after the first place where the delimiter occurs. The
-- empty delimiter occurs in front of every text.
def cutFirst? (delimiter : Text) (text : Text) : Option (Text × Text) :=
  if delimiter.isPrefixOf text then some ([], text.drop delimiter.length)
  else match text with
    | [] => none
    | c :: rest =>
      match cutFirst? delimiter rest with
      | none => none
      | some (before, after) => some (c :: before, after)

def cut (delimiter text : Text) : Text × Text :=
  (cutFirst? delimiter text).getD ([], text)

-- One way to take something off the front of a text: its next word, or all in front
-- of a delimiter.
inductive Cutter where
  | word (delimiters : Text)
  | upTo (delimiter : Text)
deriving DecidableEq

-- What is taken off and what remains. Cutting at a delimiter always answers; where
-- the delimiter does not occur it takes nothing.
def Cutter.take : Cutter → Text → Option (Text × Text)
  | .word delimiters, text => nextWord? delimiters text
  | .upTo delimiter, text => some (cut delimiter text)

def takeEach : List Cutter → Text → List (Option (Text × Text))
  | [], _ => []
  | cutter :: rest, text =>
    let answer := cutter.take text
    answer :: takeEach rest ((answer.map (·.2)).getD text)

end LineShell.Text
