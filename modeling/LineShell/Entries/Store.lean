import LineShell.Entries.File

namespace LineShell

-- The entries of one file during a session. The defaults are those it was made with,
-- and nothing changes them.
structure Store where
  path : Path
  defaults : Entries
  entries : Entries
  isOpen : Bool

namespace Store

def make (path : Path) (defaults : Entries) : Store := ⟨path, defaults, .empty, false⟩

structure Opened where
  store : Store
  notices : List Entries.Notice

-- Opening always reads the file again.
def «open» (store : Store) (disk : Disk) : Except PathError Opened :=
  match Entries.load disk store.path store.defaults with
  | .error error => .error error
  | .ok loaded => .ok ⟨{ store with entries := loaded.entries, isOpen := true }, loaded.notices⟩

def flush (store : Store) (disk : Disk) : Except PathError Entries.Saved :=
  Entries.save disk store.path store.entries

structure Closed where
  store : Store
  disk : Disk
  notices : List Entries.Notice

-- Closing saves an open store, and does nothing to one that is not open.
def close (store : Store) (disk : Disk) : Except PathError Closed :=
  if store.isOpen then
    match store.flush disk with
    | .error error => .error error
    | .ok saved => .ok ⟨{ store with isOpen := false }, saved.disk, saved.notices⟩
  else .ok ⟨store, disk, []⟩

def get? (store : Store) (key : Text) : Option Text := store.entries.find? key

-- What a caller can ask for. The entries come in ascending order of their keys, whatever
-- the order in which they were set.
def get (store : Store) (key : Text) (default : Option Text) : Option Text :=
  (store.get? key).or default

def items (store : Store) : List (Text × Text) := store.entries.toList

def keys (store : Store) : List Text := store.entries.keys

def size (store : Store) : Nat := store.entries.size

def contains (store : Store) (key : Text) : Bool := store.entries.contains key

def set (store : Store) (key value : Text) : Store :=
  { store with entries := store.entries.insert key value }

def remove (store : Store) (key : Text) : Store := { store with entries := store.entries.erase key }

def setAll (store : Store) (pairs : List (Text × Text)) : Store :=
  { store with entries := store.entries.insertAll pairs }

-- What a body leaves behind when it is run between opening and closing.
structure Body (α : Type) where
  result : α
  store : Store
  disk : Disk

structure Session (α : Type) where
  result : α
  store : Store
  disk : Disk
  loading : List Entries.Notice
  saving : List Entries.Notice

-- Runs a body between opening and closing. However the body ends, its result comes
-- out unchanged and the entries are saved.
def session {α : Type} (store : Store) (disk : Disk) (body : Store → Disk → Body α) :
    Except PathError (Session α) :=
  match store.open disk with
  | .error error => .error error
  | .ok opened =>
    let left := body opened.store disk
    match left.store.close left.disk with
    | .error error => .error error
    | .ok closed => .ok ⟨left.result, closed.store, closed.disk, opened.notices, closed.notices⟩

end Store

end LineShell
