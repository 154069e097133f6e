import LineShell.Disk.Access
import LineShell.Entries.Basic

namespace LineShell

-- What the machine gives to a process that it starts: the values of its variables, and the
-- home directory that its accounts name for the user, if they name one.
structure Environment where
  values : Entries
  account : Option Text := none

namespace Environment

def empty : Environment := ⟨.empty, none⟩

def ofList (values : List (Text × Text)) : Environment := ⟨.ofList values, none⟩

def find? (environment : Environment) (name : Text) : Option Text := environment.values.find? name

-- A variable goes through the machine: it has to have bytes, and what is read of it is
-- what they are given back as.
def held : Text × Text → Except PathError (Text × Text)
  | (name, value) =>
    match PathError.of? value with
    | some error => .error error
    | none => .ok (name.givenBack, value.givenBack)

def ofGiven (given : List (Text × Text)) : Except PathError Environment :=
  (given.mapM held).map ofList

end Environment

namespace DataRoot

inductive Error where
  | noHome
  | file (error : FileError)
deriving DecidableEq

def Error.message : Error → Text
  | .noHome => "Could not determine home directory."
  | .file error => error.message

-- The home of the user: the variable says it, even when it is empty, and without one the account.
def home? (environment : Environment) : Option Path :=
  match environment.find? "HOME" <|> environment.account with
  | none => none
  | some given =>
    match given.dropLastWhile (· = .slash) with
    | [] => some (Path.ofText [.slash])
    | c :: rest => if c = .tilde then none else some (Path.ofText (c :: rest))

def path (environment : Environment) : Except Error Path :=
  match environment.find? "CRATCHIT_DATA_HOME" with
  | some (c :: rest) => .ok (Path.ofText (c :: rest))
  | _ =>
    match home? environment with
    | none => .error .noHome
    | some home => .ok ((home.child ".local").child "share")

-- Makes the data root; what was made of it stays even when that fails.
def prepare (environment : Environment) (disk : Disk) : Except Error Path × Disk :=
  match path environment with
  | .error error => (.error error, disk)
  | .ok root =>
    match disk.ensureDirectory root with
    | (some error, disk) => (.error (.file error), disk)
    | (none, disk) => (.ok root, disk)

end DataRoot

end LineShell
