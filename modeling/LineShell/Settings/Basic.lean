import LineShell.Entries.Basic
import LineShell.Settings.Value

namespace LineShell

structure Settings where
  root : Value

inductive SettingsError where
  | noSections (value : Value)
  | notIterable (value : Value)

def SettingsError.message : SettingsError → Text
  | .noSections value => "'" ++ value.typeName ++ Text.ofString "' object has no attribute 'get'"
  | .notIterable value => "'" ++ value.typeName ++ Text.ofString "' object is not iterable"

namespace Settings

def defaultEntriesName : Text := "cratchit.env"
def defaultUnset : Text := "<unset>"
def defaultQuitTriggers : List Text := ["quit", "q"]

-- The value at a dotted path. The empty path names nothing.
def find? (settings : Settings) (path : Text) : Option Value :=
  if path = [] then none else settings.root.follow (Text.pieces .dot path)

def get (settings : Settings) (path : Text) (default : Value) : Value :=
  (settings.find? path).getD default

def section? (settings : Settings) (name : Text) : Except SettingsError (Option Value) :=
  match settings.root with
  | .map fields => .ok (Value.field? name fields)
  | value => .error (.noSections value)

def system (settings : Settings) : Except SettingsError Value :=
  (settings.section? "system").map (·.getD (.map []))

-- A texts section that is no map is as good as none.
def texts (settings : Settings) : Except SettingsError (List (Key × Value)) :=
  (settings.section? "texts").map fun
    | some (.map fields) => fields
    | _ => []

def entriesName (settings : Settings) : Text :=
  (settings.get "environment.filename" (.text defaultEntriesName)).display

-- The entries that a new file starts from, keys and values as they are displayed.
def seeds (settings : Settings) : Entries :=
  match settings.get "environment.seed" (.map []) with
  | .map fields => Entries.ofList (fields.map fun (key, value) => (key.display, value.display))
  | _ => .empty

-- The lines that end a session. A text counts as the list of its code points, a map
-- as the list of its keys.
def quitTriggers (settings : Settings) : Except SettingsError (List Text) :=
  let given := settings.get "commands.quit.triggers" .null
  if given.isBlank then .ok defaultQuitTriggers
  else match given with
    | .text t => .ok (t.map fun c => [c])
    | .list items => .ok (items.map Value.display)
    | .map fields => .ok (fields.map fun (key, _) => key.display)
    | value => .error (.notIterable value)

def unsetDisplay (settings : Settings) : Text :=
  (settings.get "system.unset_display" (.text defaultUnset)).display

-- The settings that come with the program.
def packaged : Settings := ⟨.ofFields [
  (.text "system", .ofFields [
    (.text "name", .text "Cratchit"),
    (.text "unset_display", .text "<unset>")]),
  (.text "environment", .ofFields [
    (.text "filename", .text "cratchit.env"),
    (.text "seed", .ofFields [
      (.text "Test Entry", .text "Test Value"),
      (.text "Test2", .text "4711")])]),
  (.text "texts", .ofFields [
    (.text "init", .text "\nInit from "),
    (.text "not_implemented", .text "\nUpdate for command not yet implemented"),
    (.text "prompt_marker", .text "\n>"),
    (.text "farewell", .text "\nBye for now :)")]),
  (.text "commands", .ofFields [
    (.text "quit", .ofFields [
      (.text "triggers", .list [.text "quit", .text "q"])])])]⟩

end Settings

end LineShell
