import LineShell.Settings.Value
import LineShell.Text.Numeral

namespace LineShell.Document

-- What a word without quotes stands for: nothing, a truth value, a whole number, or
-- else the text of the word itself.

def nullWords : List Text := ["", "~", "null", "Null", "NULL"]
def trueWords : List Text := ["true", "True", "TRUE", "yes", "Yes", "YES", "on", "On", "ON"]
def falseWords : List Text := ["false", "False", "FALSE", "no", "No", "NO", "off", "Off", "OFF"]

def mergeWord : Text := "<<"

def withoutUnderscores (digits : Text) : Text := digits.filter (· ≠ .ofChar '_')

-- A place of a number written to the base sixty, behind a colon.
def sixtieth? (digits : Text) : Option Nat :=
  match digits with
  | [_] => Text.numeral? 10 digits
  | [tens, _] => if (Text.digit? 6 tens).isSome then Text.numeral? 10 digits else none
  | _ => none

-- A leading zero calls for the base eight, and a letter behind it for two or sixteen.
-- Any other number is decimal, or to the base sixty with colons between its places.
def whole? (word : Text) : Option Nat :=
  match word with
  | [] => none
  | first :: rest =>
    if first = .ofChar '0' then
      match rest with
      | [] => some 0
      | second :: digits =>
        if second = .ofChar 'b' then Text.numeral? 2 (withoutUnderscores digits)
        else if second = .ofChar 'x' then Text.numeral? 16 (withoutUnderscores digits)
        else Text.numeral? 8 (first :: withoutUnderscores rest)
    else if first = .ofChar '_' then none
    else match Text.pieces .colon word with
      | [] => none
      | high :: places =>
        match Text.numeral? 10 (withoutUnderscores high), places.mapM sixtieth? with
        | some n, some values => some (values.foldl (fun n place => n * 60 + place) n)
        | _, _ => none

def int? (word : Text) : Option Int :=
  match word with
  | [] => none
  | sign :: digits =>
    if sign = .ofChar '-' then (whole? digits).map fun n => -(n : Int)
    else if sign = .ofChar '+' then (whole? digits).map fun n => (n : Int)
    else (whole? word).map fun n => (n : Int)

def wordValue (word : Text) : Value :=
  if nullWords.contains word then .null
  else if trueWords.contains word then .bool true
  else if falseWords.contains word then .bool false
  else match int? word with
    | some n => .int n
    | none => .text word

end LineShell.Document
