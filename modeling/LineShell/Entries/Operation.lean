import LineShell.Entries.Store
import LineShell.Fault

namespace LineShell.Store

inductive Question where
  | value (key : Text) (default : Option Text)
  | items
  | contains (key : Text)
  | size
  | keys

inductive Answer where
  | value (found : Option Text)
  | items (pairs : List (Text × Text))
  | contains (present : Bool)
  | size (count : Nat)
  | keys (keys : List Text)
deriving DecidableEq

def answer (store : Store) : Question → Answer
  | .value key default => .value (store.get key default)
  | .items => .items store.items
  | .contains key => .contains (store.contains key)
  | .size => .size store.size
  | .keys => .keys store.keys

-- What can happen to a store and its disk. A session sets entries between
-- opening and closing and may end by a fault; others may change the disk at any time.
inductive Operation where
  | «open»
  | close
  | flush
  | set (key value : Text)
  | remove (key : Text)
  | session (sets : List (Text × Text)) (fault : Option Fault)
  | outside (change : Disk → Disk)
  | ask (question : Question)

inductive Trouble where
  | path (error : PathError)
  | fault (fault : Fault)
deriving DecidableEq

structure Site where
  store : Store
  disk : Disk
  notices : List Entries.Notice := []
  trouble : Option Trouble := none
  answer : Option Answer := none

-- An operation that a path is no path for changes nothing.
def Site.refused (site : Site) (error : PathError) : Site :=
  { site with notices := [], trouble := some (.path error), answer := none }

def Site.perform (site : Site) : Operation → Site
  | .open =>
    match site.store.open site.disk with
    | .error error => site.refused error
    | .ok opened => { store := opened.store, disk := site.disk, notices := opened.notices }
  | .close =>
    match site.store.close site.disk with
    | .error error => site.refused error
    | .ok closed => { store := closed.store, disk := closed.disk, notices := closed.notices }
  | .flush =>
    match site.store.flush site.disk with
    | .error error => site.refused error
    | .ok saved => { store := site.store, disk := saved.disk, notices := saved.notices }
  | .set key value => { store := site.store.set key value, disk := site.disk }
  | .remove key => { store := site.store.remove key, disk := site.disk }
  | .session sets fault =>
    match site.store.session site.disk fun store disk => ⟨fault, store.setAll sets, disk⟩ with
    | .error error => site.refused error
    | .ok done =>
      { store := done.store, disk := done.disk, notices := done.loading ++ done.saving,
        trouble := done.result.map .fault }
  | .outside change => { store := site.store, disk := change site.disk }
  | .ask question =>
    { store := site.store, disk := site.disk, answer := some (site.store.answer question) }

def Site.performAll (site : Site) (operations : List Operation) : Site :=
  operations.foldl perform site

end LineShell.Store
