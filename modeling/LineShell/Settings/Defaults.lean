import LineShell.Disk.Access
import LineShell.Settings.Basic

namespace LineShell.Settings

inductive DefaultsError where
  | missing (name : Text) (directory : Path)
  | notMap (name : Text)
  | unreadable (name : Text)
  | file (error : FileError)

def DefaultsError.message : DefaultsError → Text
  | .missing name directory =>
    "Missing defaults YAML: " ++ name ++ Text.ofString " (looked in " ++ directory.text ++
      Text.ofString ")"
  | .notMap name => "Defaults YAML " ++ name ++ Text.ofString " must load to a mapping/dict."
  | .unreadable name => "Defaults YAML " ++ name ++ Text.ofString " cannot be read."
  | .file error => error.message

-- How documents are read is left open. One whose value counts as not given is an empty map;
-- any other has to be a map.
def ofDocument (read? : Text → Option Value) (name : Text) (content : Bytes) :
    Except DefaultsError Settings :=
  match content.decode?.bind read? with
  | none => .error (.unreadable name)
  | some value =>
    if value.isBlank then .ok ⟨.map []⟩
    else match value with
      | .map fields => .ok ⟨.map fields⟩
      | _ => .error (.notMap name)

def loadDefaults (read? : Text → Option Value) (disk : Disk) (directory : Path) (name : Text) :
    Except DefaultsError Settings :=
  let path := directory.join (Path.ofText name)
  match disk.present path with
  | .error error => .error (.file error)
  | .ok false => .error (.missing name directory)
  | .ok true =>
    match disk.read path with
    | .error error => .error (.file error)
    | .ok content => ofDocument read? name content

end LineShell.Settings
