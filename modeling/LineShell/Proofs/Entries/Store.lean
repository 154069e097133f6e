import LineShell.Entries.Operation
import LineShell.Proofs.Disk.Proper
import LineShell.Proofs.Entries.RoundTrip

namespace LineShell

section

variable {disk : Disk} {path : Path} {error : PathError}

namespace Entries

theorem load_eq_error {defaults : Entries} :
    load disk path defaults = .error error ↔ PathError.of? path.text = some error := by
  rw [← @Disk.read_improper disk]
  unfold load
  split <;> simp_all

theorem save_eq_error {entries : Entries} : save disk path entries = .error error ↔
    error = .nul ∧ PathError.of? path.text = some .nul ∧ entries.Encodable := by
  unfold save
  cases encodes : entries.serialize.encode with
  | error run =>
    refine iff_of_false nofun ?_
    rintro ⟨_, _, encodable⟩
    exact Text.encode_error encodes (serialize_encodable encodable)
  | ok content =>
    have encodable : entries.Encodable := encodable_of_serialize (Text.encode_exact encodes).1
    rw [← @Disk.write_improper disk path .nul content]
    dsimp only
    cases disk.write path content with
    | ok written => simp
    | error other => rcases other with ⟨refusal, place⟩ | ⟨_ | run⟩ <;> simp [encodable, eq_comm]

-- The ways in which a save returns.
inductive Saves (disk : Disk) (path : Path) (entries : Entries) : Saved → Prop where
  | written {content : Bytes} {location : Location} (encodes : entries.serialize.encode = .ok content)
      (opens : disk.writable path = .ok location) :
      Saves disk path entries ⟨disk.put location (.file content), []⟩
  | unencoded {run : SurrogateRun} (encodes : entries.serialize.encode = .error run) :
      Saves disk path entries ⟨disk, [.writeFailed path (.content run)]⟩
  | refused {content : Bytes} {error : FileError} (encodes : entries.serialize.encode = .ok content)
      (refused : disk.write path content = .error error) :
      Saves disk path entries ⟨disk, [.writeFailed path (.file error)]⟩

theorem save_sound {entries : Entries} {saved : Saved} (saves : save disk path entries = .ok saved) :
    Saves disk path entries saved := by
  unfold save at saves
  cases encodes : entries.serialize.encode with
  | error run =>
    rw [encodes] at saves
    cases saves
    exact .unencoded encodes
  | ok content =>
    rw [encodes] at saves
    dsimp only at saves
    cases opens : disk.writable path with
    | ok location =>
      rw [Disk.write_ok opens] at saves
      cases saves
      exact .written encodes opens
    | error error =>
      have refused : disk.write path content = .error error := by rw [Disk.write, opens]; rfl
      rw [refused] at saves
      rcases error with ⟨refusal, place⟩ | ⟨_ | run⟩ <;> cases saves <;>
        exact .refused encodes refused

-- So a proper path can be loaded from and saved to; what fails is told of in the notices.
theorem load_proper (proper : path.Proper) (disk : Disk) (defaults : Entries) :
    ∃ loaded, load disk path defaults = .ok loaded := by
  cases loads : load disk path defaults with
  | ok loaded => exact ⟨loaded, rfl⟩
  | error error => cases (load_eq_error.mp loads).symm.trans proper

theorem load_of_improper (improper : ¬ path.Proper) (disk : Disk) (defaults : Entries) :
    ∃ error, load disk path defaults = .error error := by
  obtain ⟨error, refused⟩ := Option.ne_none_iff_exists'.mp improper
  exact ⟨error, load_eq_error.mpr refused⟩

theorem proper_of_load {defaults : Entries} {loaded : Loaded}
    (loads : load disk path defaults = .ok loaded) : path.Proper := by
  by_contra improper
  obtain ⟨error, refused⟩ := load_of_improper improper disk defaults
  cases loads.symm.trans refused

theorem save_proper (proper : path.Proper) (disk : Disk) (entries : Entries) :
    ∃ saved, save disk path entries = .ok saved := by
  cases saves : save disk path entries with
  | ok saved => exact ⟨saved, rfl⟩
  | error error => cases (save_eq_error.mp saves).2.1.symm.trans proper

end Entries

end

namespace Store

inductive Edit where
  | set (key value : Text)
  | remove (key : Text)

-- A plain map: what each key holds, and nothing else.
def Edit.apply (map : Text → Option Text) : Edit → Text → Option Text
  | .set key value, wanted => if wanted = key then some value else map wanted
  | .remove key, wanted => if wanted = key then none else map wanted

def replay (map : Text → Option Text) (edits : List Edit) : Text → Option Text :=
  edits.foldl Edit.apply map

namespace Operation

def edits : Operation → List Edit
  | .set key value => [.set key value]
  | .remove key => [.remove key]
  | .session sets _ => sets.map fun pair => .set pair.1 pair.2
  | _ => []

def loads : Operation → Bool
  | .open => true
  | .session _ _ => true
  | _ => false

def saves (isOpen : Bool) : Operation → Bool
  | .close => isOpen
  | .flush => true
  | .session _ _ => true
  | _ => false

def leavesOpen (isOpen : Bool) : Operation → Bool
  | .open => true
  | .close => false
  | .session _ _ => false
  | _ => isOpen

-- What others do to the disk meanwhile.
def outsideChange : Operation → Disk → Disk
  | .outside change => change
  | _ => id

def raises : Operation → Option Trouble
  | .session _ fault => fault.map .fault
  | _ => none

end Operation

theorem replay_append (map : Text → Option Text) (first second : List Edit) :
    replay map (first ++ second) = replay (replay map first) second :=
  List.foldl_append

theorem find?_edit (entries : Entries) (key value : Text) :
    (entries.insert key value).find? = Edit.apply entries.find? (.set key value) := by
  funext wanted
  exact Entries.find?_insert entries key value wanted

theorem find?_insertAll (entries : Entries) (pairs : List (Text × Text)) :
    (entries.insertAll pairs).find? =
      replay entries.find? (pairs.map fun pair => .set pair.1 pair.2) := by
  induction pairs generalizing entries with
  | nil => rfl
  | cons pair rest ih =>
    have first : (entries.insertAll (pair :: rest)).find? =
        ((entries.insert pair.1 pair.2).insertAll rest).find? := rfl
    rw [first, ih, find?_edit]
    rfl

-- All that an operation comes to at a proper path.
inductive Performs (site : Site) : Operation → Site → Prop where
  | «open» {loaded : Entries.Loaded}
      (loads : Entries.load site.disk site.store.path site.store.defaults = .ok loaded) :
      Performs site .open
        { store := { site.store with entries := loaded.entries, isOpen := true },
          disk := site.disk, notices := loaded.notices }
  | close {saved : Entries.Saved} (opened : site.store.isOpen = true)
      (saves : Entries.save site.disk site.store.path site.store.entries = .ok saved) :
      Performs site .close
        { store := { site.store with isOpen := false }, disk := saved.disk, notices := saved.notices }
  | closed (shut : site.store.isOpen = false) :
      Performs site .close { store := site.store, disk := site.disk }
  | flush {saved : Entries.Saved}
      (saves : Entries.save site.disk site.store.path site.store.entries = .ok saved) :
      Performs site .flush { store := site.store, disk := saved.disk, notices := saved.notices }
  | set (key value : Text) :
      Performs site (.set key value) { store := site.store.set key value, disk := site.disk }
  | remove (key : Text) :
      Performs site (.remove key) { store := site.store.remove key, disk := site.disk }
  | session {sets : List (Text × Text)} {fault : Option Fault} {loaded : Entries.Loaded}
      {saved : Entries.Saved}
      (loads : Entries.load site.disk site.store.path site.store.defaults = .ok loaded)
      (saves : Entries.save site.disk site.store.path (loaded.entries.insertAll sets) = .ok saved) :
      Performs site (.session sets fault)
        { store := { site.store with entries := loaded.entries.insertAll sets, isOpen := false },
          disk := saved.disk, notices := loaded.notices ++ saved.notices,
          trouble := fault.map .fault }
  | outside (change : Disk → Disk) :
      Performs site (.outside change) { store := site.store, disk := change site.disk }
  | ask (question : Question) :
      Performs site (.ask question)
        { store := site.store, disk := site.disk, answer := some (site.store.answer question) }

-- What is not performed is refused for its path, by the load or by the save in it.
theorem perform_cases (site : Site) (operation : Operation) :
    Performs site operation (site.perform operation) ∨
    ∃ error, site.perform operation = site.refused error ∧
      (operation.loads = true ∧
        Entries.load site.disk site.store.path site.store.defaults = .error error ∨
      operation.saves site.store.isOpen = true ∧
        Entries.save site.disk site.store.path site.store.entries = .error error) := by
  cases operation with
  | «open» =>
    simp only [Site.perform, Store.open]
    cases loads : Entries.load site.disk site.store.path site.store.defaults with
    | error error => exact .inr ⟨error, rfl, .inl ⟨rfl, rfl⟩⟩
    | ok loaded => exact .inl (.open loads)
  | close =>
    simp only [Site.perform, close, flush]
    cases isOpen : site.store.isOpen with
    | true =>
      cases saves : Entries.save site.disk site.store.path site.store.entries with
      | error error => exact .inr ⟨error, rfl, .inr ⟨rfl, rfl⟩⟩
      | ok saved => exact .inl (.close isOpen saves)
    | false => exact .inl (.closed isOpen)
  | flush =>
    simp only [Site.perform, flush]
    cases saves : Entries.save site.disk site.store.path site.store.entries with
    | error error => exact .inr ⟨error, rfl, .inr ⟨rfl, rfl⟩⟩
    | ok saved => exact .inl (.flush saves)
  | set key value => exact .inl (.set key value)
  | remove key => exact .inl (.remove key)
  | session sets fault =>
    simp only [Site.perform, session, Store.open, close, setAll, flush]
    cases loads : Entries.load site.disk site.store.path site.store.defaults with
    | error error => exact .inr ⟨error, rfl, .inl ⟨rfl, rfl⟩⟩
    | ok loaded =>
      -- The path that was loaded from is one to save to.
      obtain ⟨saved, saves⟩ := Entries.save_proper (Entries.proper_of_load loads) site.disk
        (loaded.entries.insertAll sets)
      simp only [saves]
      exact .inl (.session loads saves)
  | outside change => exact .inl (.outside change)
  | ask question => exact .inl (.ask question)

theorem perform_sound (site : Site) (proper : site.store.path.Proper) (operation : Operation) :
    Performs site operation (site.perform operation) := by
  rcases perform_cases site operation with performs | ⟨error, _, ⟨_, loads⟩ | ⟨_, saves⟩⟩
  · exact performs
  · cases (Entries.load_eq_error.mp loads).symm.trans proper
  · cases (Entries.save_eq_error.mp saves).2.1.symm.trans proper

theorem perform_fixed {site next : Site} {operation : Operation}
    (performs : Performs site operation next) :
    next.store.path = site.store.path ∧ next.store.defaults = site.store.defaults := by
  cases performs <;> exact ⟨rfl, rfl⟩

-- Between two loads only the edits change the map.
theorem perform_edits {site next : Site} {operation : Operation}
    (performs : Performs site operation next) (keeps : operation.loads = false) :
    next.store.get? = replay site.store.get? operation.edits := by
  cases performs with
  | «open» _ => cases keeps
  | close _ _ => rfl
  | closed _ => rfl
  | flush _ => rfl
  | set key value => exact find?_edit site.store.entries key value
  | remove key =>
    funext wanted
    exact Entries.find?_erase site.store.entries key wanted
  | session _ _ => cases keeps
  | outside _ => rfl
  | ask _ => rfl

-- A load forgets the map, and takes up the file as it is then.
theorem perform_loads {site next : Site} {operation : Operation}
    (performs : Performs site operation next) (loading : operation.loads = true) :
    ∃ loaded, Entries.load site.disk site.store.path site.store.defaults = .ok loaded ∧
      next.store.get? = replay loaded.entries.find? operation.edits := by
  cases performs with
  | «open» loads => exact ⟨_, loads, rfl⟩
  | close _ _ => cases loading
  | closed _ => cases loading
  | flush _ => cases loading
  | set _ _ => cases loading
  | remove _ => cases loading
  | session loads _ => exact ⟨_, loads, find?_insertAll _ _⟩
  | outside _ => cases loading
  | ask _ => cases loading

theorem perform_saves {site next : Site} {operation : Operation}
    (performs : Performs site operation next) (saving : operation.saves site.store.isOpen = true) :
    ∃ saved, Entries.save site.disk site.store.path next.store.entries = .ok saved ∧
      next.disk = saved.disk ∧ saved.notices <:+ next.notices := by
  cases performs with
  | «open» _ => cases saving
  | close _ saves => exact ⟨_, saves, rfl, List.suffix_rfl⟩
  | closed shut => cases shut.symm.trans saving
  | flush saves => exact ⟨_, saves, rfl, List.suffix_rfl⟩
  | set _ _ => cases saving
  | remove _ => cases saving
  | session _ saves => exact ⟨_, saves, rfl, List.suffix_append _ _⟩
  | outside _ => cases saving
  | ask _ => cases saving

theorem perform_leaves_disk {site next : Site} {operation : Operation}
    (performs : Performs site operation next) (unsaved : operation.saves site.store.isOpen = false) :
    next.disk = operation.outsideChange site.disk := by
  cases performs with
  | «open» _ => rfl
  | close opened _ => cases opened.symm.trans unsaved
  | closed _ => rfl
  | flush _ => cases unsaved
  | set _ _ => rfl
  | remove _ => rfl
  | session _ _ => cases unsaved
  | outside _ => rfl
  | ask _ => rfl

theorem perform_isOpen {site next : Site} {operation : Operation}
    (performs : Performs site operation next) :
    next.store.isOpen = operation.leavesOpen site.store.isOpen := by
  cases performs with
  | closed shut => exact shut
  | _ => rfl

theorem perform_raises {site next : Site} {operation : Operation}
    (performs : Performs site operation next) : next.trouble = operation.raises := by
  cases performs <;> rfl

-- What one operation does: the disk is touched by saving the map alone, and only a session
-- raises, with what its body raised.
structure Conducts (site : Site) (operation : Operation) (next : Site) : Prop where
  edits : operation.loads = false → next.store.get? = replay site.store.get? operation.edits
  saves : operation.saves site.store.isOpen = true →
    ∃ saved, Entries.save site.disk site.store.path next.store.entries = .ok saved ∧
      next.disk = saved.disk ∧ saved.notices <:+ next.notices
  leavesDisk : operation.saves site.store.isOpen = false →
    next.disk = operation.outsideChange site.disk
  isOpen : next.store.isOpen = operation.leavesOpen site.store.isOpen
  raises : next.trouble = operation.raises
  idle : operation = .close → site.store.isOpen = false →
    next.store = site.store ∧ next.disk = site.disk ∧ next.notices = []
  answers : ∀ question, operation = .ask question →
    next.store = site.store ∧ next.answer = some (site.store.answer question)

theorem perform_conducts {site next : Site} {operation : Operation}
    (performs : Performs site operation next) : Conducts site operation next := by
  refine ⟨perform_edits performs, perform_saves performs, perform_leaves_disk performs,
    perform_isOpen performs, perform_raises performs, ?_, ?_⟩
  · rintro rfl shut
    cases performs with
    | close opened _ => cases shut.symm.trans opened
    | closed _ => exact ⟨rfl, rfl, rfl⟩
  · rintro question rfl
    cases performs with
    | ask _ => exact ⟨rfl, rfl⟩

-- The answers of a store all speak of one list, in ascending order of its keys.
structure Agrees (store : Store) : Prop where
  ascending : store.items.Pairwise fun one two => one.1 < two.1
  keys : store.keys = store.items.map Prod.fst
  size : store.size = store.items.length
  contains : ∀ key, store.contains key = true ↔ key ∈ store.keys
  get : ∀ key default value, store.get key default = some value ↔
    (key, value) ∈ store.items ∨ key ∉ store.keys ∧ default = some value

theorem mem_keys (entries : Entries) (key : Text) :
    key ∈ entries.keys ↔ ∃ value, entries.find? key = some value := by
  simp only [Entries.keys, List.mem_map, Prod.exists, exists_and_right, exists_eq_right,
    Entries.mem_pairs]

theorem store_agrees (store : Store) : Agrees store := by
  refine ⟨store.entries.ascending, rfl, rfl, ?_, ?_⟩
  · intro key
    exact Option.isSome_iff_exists.trans (mem_keys store.entries key).symm
  · intro key default value
    have present : (key, value) ∈ store.items ↔ store.get? key = some value :=
      Entries.mem_pairs store.entries key value
    have absent : key ∉ store.keys ↔ store.get? key = none := by
      rw [Option.eq_none_iff_forall_ne_some]
      exact (not_congr (mem_keys store.entries key)).trans not_exists
    rw [present, absent, get]
    exact Option.or_eq_some_iff

namespace Site

def fresh (path : Path) (defaults : Entries) (disk : Disk) : Site := { store := make path defaults, disk }

theorem performAll_append (site : Site) (first second : List Operation) :
    site.performAll (first ++ second) = (site.performAll first).performAll second :=
  List.foldl_append

theorem performAll_fixed (site : Site) (proper : site.store.path.Proper) (operations : List Operation) :
    (site.performAll operations).store.path = site.store.path ∧
      (site.performAll operations).store.defaults = site.store.defaults := by
  induction operations generalizing site with
  | nil => exact ⟨rfl, rfl⟩
  | cons operation rest ih =>
    obtain ⟨path, defaults⟩ := perform_fixed (perform_sound site proper operation)
    obtain ⟨kept, same⟩ := ih (site.perform operation) (path ▸ proper)
    exact ⟨kept.trans path, same.trans defaults⟩

theorem performAll_edits (site : Site) (proper : site.store.path.Proper) (operations : List Operation)
    (keep : ∀ operation ∈ operations, operation.loads = false) :
    (site.performAll operations).store.get? =
      replay site.store.get? (operations.flatMap Operation.edits) := by
  induction operations generalizing site with
  | nil => rfl
  | cons operation rest ih =>
    obtain ⟨keeps, later⟩ := List.forall_mem_cons.mp keep
    have performs := perform_sound site proper operation
    have path := (perform_fixed performs).1
    rw [List.flatMap_cons, replay_append, ← perform_edits performs keeps]
    exact ih (site.perform operation) (path ▸ proper) later

end Site

-- A store is a plain map with a file: whatever happened to it, the map is what the last load
-- found, with the edits since then; and what it does to the file is to save that map.
theorem store_refines_map (path : Path) (defaults : Entries) (disk : Disk)
    (encodable : path.text.Encodable) (clean : .nul ∉ path.text) (operations : List Operation) :
    let fresh := Site.fresh path defaults disk
    let site := fresh.performAll operations
    site.store.path = path ∧ site.store.defaults = defaults ∧
      ((∀ operation ∈ operations, operation.loads = false) →
        site.store.get? = replay (fun _ => none) (operations.flatMap Operation.edits)) ∧
      (∀ before operation since, operations = before ++ operation :: since → operation.loads = true →
        (∀ later ∈ since, later.loads = false) →
        ∃ loaded, Entries.load (fresh.performAll before).disk path defaults = .ok loaded ∧
          site.store.get? =
            replay loaded.entries.find? (operation.edits ++ since.flatMap Operation.edits)) ∧
      (∀ operation, Conducts site operation (site.perform operation)) ∧ Agrees site.store := by
  intro fresh site
  have proper : fresh.store.path.Proper := Path.proper_of_encodable encodable clean
  obtain ⟨fixedPath, fixedDefaults⟩ := fresh.performAll_fixed proper operations
  refine ⟨fixedPath, fixedDefaults, fresh.performAll_edits proper operations, ?_, ?_, store_agrees _⟩
  · intro before operation since shape loading keep
    obtain ⟨samePath, sameDefaults⟩ := fresh.performAll_fixed proper before
    have ready : (fresh.performAll before).store.path.Proper := samePath.symm ▸ proper
    have performs := perform_sound _ ready operation
    obtain ⟨loaded, loads, map⟩ := perform_loads performs loading
    rw [samePath, sameDefaults] at loads
    refine ⟨loaded, loads, ?_⟩
    have after := ((fresh.performAll before).perform operation).performAll_edits
      ((perform_fixed performs).1.symm ▸ ready) since keep
    rw [map, ← replay_append] at after
    rw [← after]
    change (fresh.performAll operations).store.get? = _
    rw [shape, Site.performAll_append]
    rfl
  · intro operation
    exact perform_conducts (perform_sound site (fixedPath.symm ▸ proper) operation)

-- A session in a store that is open already, ended by a fault, and a removal behind it: the
-- map is what the session loaded, with its sets and that removal. What was set before the store
-- was opened is lost, and what was flushed comes back from the file.
theorem nested_session_refines_map :
    let seeds := Entries.ofList [("seed", "0")]
    let before : List Operation :=
      [.set "early" "1", .open, .set "kept" "1", .remove "seed", .flush, .remove "kept"]
    let session : Operation := .session [("late", "2")] (some ⟨.value, "stop"⟩)
    let site := (Site.fresh Entries.keptFile seeds Entries.bareDisk).performAll
      (before ++ session :: [.remove "seed"])
    Entries.keptFile.text.Encodable ∧ .nul ∉ Entries.keptFile.text ∧
      site.store.get? "early" = none ∧ site.store.get? "kept" = some (Text.ofString "1") ∧
      site.store.get? "late" = some (Text.ofString "2") ∧ site.store.get? "seed" = none ∧
      (site.perform session).trouble = some (.fault ⟨.value, "stop"⟩) := by
  intro seeds before session site
  have encodable : Entries.keptFile.text.Encodable := by decide
  have clean : .nul ∉ Entries.keptFile.text := by decide
  obtain ⟨_, _, _, reloads, conducts, _⟩ := store_refines_map Entries.keptFile seeds Entries.bareDisk
    encodable clean (before ++ session :: [.remove "seed"])
  obtain ⟨loaded, loads, map⟩ := reloads before session [.remove "seed"] rfl rfl (by decide)
  have left : (Entries.load ((Site.fresh Entries.keptFile seeds Entries.bareDisk).performAll before).disk
      Entries.keptFile seeds).toOption.map
        (fun loaded => (loaded.entries.find? "early", loaded.entries.find? "kept")) =
      some (none, some (Text.ofString "1")) := by decide +kernel
  rw [loads] at left
  obtain ⟨early, kept⟩ := Prod.mk.inj (Option.some.inj left)
  refine ⟨encodable, clean, ?_, ?_, ?_, ?_, (conducts session).raises⟩
  · exact (congrFun map "early").trans early
  · exact (congrFun map "kept").trans kept
  · exact congrFun map "late"
  · exact congrFun map "seed"

end Store

end LineShell
