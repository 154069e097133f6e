import LineShell.Proofs.Entries.Found
import LineShell.Proofs.Entries.Saving

namespace LineShell

namespace Entries

theorem encodable_iff (entries : Entries) : entries.Encodable ↔
    ∀ key value, entries.find? key = some value → key.Encodable ∧ value.Encodable := by
  constructor
  · intro encodable key value found
    exact encodable (key, value) ((mem_pairs _ _ _).mpr found)
  · rintro encodable ⟨key, value⟩ among
    exact encodable key value ((mem_pairs _ _ _).mp among)

theorem load_encodable {disk : Disk} {path : Path} {defaults : Entries} {loaded : Loaded}
    (encodable : defaults.Encodable) (loads : load disk path defaults = .ok loaded) :
    loaded.entries.Encodable := by
  obtain ⟨found, storable, shape⟩ := load_found loads
  rw [encodable_iff] at encodable ⊢
  intro key value held
  rw [shape, find?_override, Option.or_eq_some_iff] at held
  rcases held with read | ⟨_, seed⟩
  · exact ⟨(storable key value read).encodableKey, (storable key value read).encodableValue⟩
  · exact encodable key value seed

-- What an entry has to be so that the file keeps it, and what a key has to be so that it
-- stays away when the file has none.
def Lasting (seeds : Entries) (key : Text) : Option Text → Prop
  | some value => OneLine (key, value)
  | none => seeds.find? key = none

theorem find?_fitting_broken {entries : Entries} {key value : Text}
    (found : entries.find? key = some value) (broken : ¬ OneLine (key, value)) :
    entries.fitting.find? key = none := by
  rw [Option.eq_none_iff_forall_ne_some]
  intro other kept
  obtain ⟨same, clean⟩ := (find?_fitting _ _ _).mp kept
  cases found.symm.trans same
  exact broken clean

theorem find?_fitting_absent {entries : Entries} {key : Text} (absent : entries.find? key = none) :
    entries.fitting.find? key = none := by
  rw [Option.eq_none_iff_forall_ne_some]
  intro value kept
  cases absent.symm.trans ((find?_fitting _ _ _).mp kept).1

theorem find?_reloaded {seeds entries : Entries} {key : Text} {held : Option Text}
    (lasting : Lasting seeds key held) (found : entries.find? key = held) :
    (seeds.override entries.fitting).find? key = held := by
  rw [find?_override]
  cases held with
  | some value =>
    rw [(find?_fitting _ _ _).mpr ⟨found, lasting⟩]
    rfl
  | none =>
    rw [find?_fitting_absent found]
    exact lasting

end Entries

namespace Store

namespace Edit

def operation : Edit → Operation
  | .set key value => .set key value
  | .remove key => .remove key

def key : Edit → Text
  | .set key _ => key
  | .remove key => key

-- Only what is set is ever written.
def Encodable : Edit → Prop
  | .set key value => key.Encodable ∧ value.Encodable
  | .remove _ => True

instance (edit : Edit) : Decidable edit.Encodable :=
  match edit with
  | .set key value => inferInstanceAs (Decidable (key.Encodable ∧ value.Encodable))
  | .remove _ => inferInstanceAs (Decidable True)

-- The edit leaves what is held for the key.
def Spares (wanted : Text) (held : Option Text) (edit : Edit) : Prop :=
  edit.key = wanted → held = none ∧ ∀ value, edit ≠ .set wanted value

theorem operation_loads (edit : Edit) : edit.operation.loads = false := by cases edit <;> rfl

theorem operation_edits (edit : Edit) : edit.operation.edits = [edit] := by cases edit <;> rfl

theorem apply_spared {wanted : Text} {held : Option Text} {map : Text → Option Text} {edit : Edit}
    (spares : edit.Spares wanted held) (found : map wanted = held) : edit.apply map wanted = held := by
  cases edit with
  | set key value =>
    rw [apply]
    split
    · rename_i same
      exact absurd (by rw [same]) ((spares same.symm).2 value)
    · exact found
  | remove key =>
    rw [apply]
    split
    · rename_i same
      exact (spares same.symm).1.symm
    · exact found

end Edit

theorem replay_spared {wanted : Text} {held : Option Text} {map : Text → Option Text}
    {edits : List Edit} (spared : ∀ edit ∈ edits, edit.Spares wanted held)
    (found : map wanted = held) : replay map edits wanted = held := by
  induction edits generalizing map with
  | nil => exact found
  | cons edit rest ih =>
    obtain ⟨first, later⟩ := List.forall_mem_cons.mp spared
    exact ih later (Edit.apply_spared first found)

theorem replay_encodable {map : Text → Option Text} {edits : List Edit}
    (start : ∀ key value, map key = some value → key.Encodable ∧ value.Encodable)
    (encodable : ∀ edit ∈ edits, edit.Encodable) {key value : Text}
    (found : replay map edits key = some value) : key.Encodable ∧ value.Encodable := by
  induction edits generalizing map with
  | nil => exact start key value found
  | cons edit rest ih =>
    obtain ⟨first, later⟩ := List.forall_mem_cons.mp encodable
    refine ih ?_ later found
    intro name given held
    cases edit with
    | set k v =>
      rw [Edit.apply] at held
      split at held
      · rename_i same
        cases held
        exact same ▸ first
      · exact start name given held
    | remove k =>
      rw [Edit.apply] at held
      split at held
      · cases held
      · exact start name given held

-- One session of a chain: by the store of the session before or by a new one in its place.
structure Visit where
  renewed : Bool
  edits : List Edit

namespace Site

def edit (site : Site) (edits : List Edit) : Site := site.performAll (edits.map Edit.operation)

def enter (site : Site) (visit : Visit) : Site :=
  let store := if visit.renewed then make site.store.path site.store.defaults else site.store
  Site.perform { site with store } .open

def visit (site : Site) (visit : Visit) : Site :=
  ((site.enter visit).edit visit.edits).perform .close

def visitAll (site : Site) (visits : List Visit) : Site := visits.foldl Site.visit site

theorem enter_exact (site : Site) (proper : site.store.path.Proper) (visit : Visit) :
    ∃ loaded, Entries.load site.disk site.store.path site.store.defaults = .ok loaded ∧
      site.enter visit =
        { store := ⟨site.store.path, site.store.defaults, loaded.entries, true⟩, disk := site.disk,
          notices := loaded.notices } := by
  obtain ⟨loaded, loads⟩ := Entries.load_proper proper site.disk site.store.defaults
  refine ⟨loaded, loads, ?_⟩
  unfold enter
  cases visit.renewed with
  | true => simp only [if_true, make, perform, Store.open, loads]
  | false => simp only [Bool.false_eq_true, if_false, perform, Store.open, loads]

-- Edits change the map and nothing else.
theorem edit_frame (site : Site) (edits : List Edit) :
    (site.edit edits).disk = site.disk ∧ (site.edit edits).store.path = site.store.path ∧
      (site.edit edits).store.defaults = site.store.defaults ∧
      (site.edit edits).store.isOpen = site.store.isOpen := by
  induction edits generalizing site with
  | nil => exact ⟨rfl, rfl, rfl, rfl⟩
  | cons edit rest ih =>
    obtain ⟨disk, path, defaults, isOpen⟩ := ih (site.perform edit.operation)
    cases edit <;> exact ⟨disk, path, defaults, isOpen⟩

theorem edit_map (site : Site) (proper : site.store.path.Proper) (edits : List Edit) :
    (site.edit edits).store.get? = replay site.store.get? edits := by
  have keep : ∀ operation ∈ edits.map Edit.operation, operation.loads = false := by
    intro operation among
    obtain ⟨edit, _, rfl⟩ := List.mem_map.mp among
    exact edit.operation_loads
  have same : (edits.map Edit.operation).flatMap Operation.edits = edits := by
    rw [List.flatMap_map]
    simp only [Edit.operation_edits, List.flatMap_singleton']
  rw [edit, performAll_edits site proper _ keep, same]

theorem close_exact (site : Site) (proper : site.store.path.Proper) (opened : site.store.isOpen = true) :
    ∃ saved, Entries.save site.disk site.store.path site.store.entries = .ok saved ∧
      (site.perform .close).store = { site.store with isOpen := false } ∧
      (site.perform .close).disk = saved.disk := by
  generalize result : site.perform .close = next
  have performs := perform_sound site proper .close
  rw [result] at performs
  cases performs with
  | close _ saves => exact ⟨_, saves, rfl, rfl⟩
  | closed shut => cases shut.symm.trans opened

-- All that a visit comes to.
structure Visited (site : Site) (visit : Visit) (loaded : Entries.Loaded) (saved : Entries.Saved) :
    Prop where
  loads : Entries.load site.disk site.store.path site.store.defaults = .ok loaded
  entered : (site.enter visit).store.entries = loaded.entries
  edited : ∀ edits, ((site.enter visit).edit edits).store.get? = replay loaded.entries.find? edits
  saves : Entries.save site.disk site.store.path (site.visit visit).store.entries = .ok saved
  disk : (site.visit visit).disk = saved.disk
  held : (site.visit visit).store.get? = replay loaded.entries.find? visit.edits
  path : (site.visit visit).store.path = site.store.path
  defaults : (site.visit visit).store.defaults = site.store.defaults

theorem visit_exact (site : Site) (proper : site.store.path.Proper) (visit : Visit) :
    ∃ loaded saved, Visited site visit loaded saved := by
  obtain ⟨loaded, loads, entered⟩ := site.enter_exact proper visit
  have samePath : (site.enter visit).store.path = site.store.path := by rw [entered]
  have edited (edits : List Edit) :
      ((site.enter visit).edit edits).store.get? = replay loaded.entries.find? edits := by
    rw [edit_map _ (samePath.symm ▸ proper), entered]
    rfl
  obtain ⟨disk, path, defaults, isOpen⟩ := (site.enter visit).edit_frame visit.edits
  rw [samePath] at path
  have sameDisk : ((site.enter visit).edit visit.edits).disk = site.disk := by
    rw [disk, entered]
  have opened : ((site.enter visit).edit visit.edits).store.isOpen = true := by
    rw [isOpen, entered]
  obtain ⟨saved, saves, store, left⟩ := close_exact _ (path.symm ▸ proper) opened
  have closed : (site.visit visit).store =
      { ((site.enter visit).edit visit.edits).store with isOpen := false } := store
  refine ⟨loaded, saved, loads, by rw [entered], edited, ?_, left, ?_, ?_, ?_⟩
  · rw [sameDisk, path] at saves
    rw [closed]
    exact saves
  · rw [closed]
    exact edited visit.edits
  · rw [closed]
    exact path
  · rw [closed]
    dsimp only
    rw [defaults, entered]

-- A site at which a session can begin, and one at which a session has ended: there the file
-- holds all that the store held.
structure Ready (path : Path) (seeds : Entries) (location : Location) (site : Site) : Prop where
  samePath : site.store.path = path
  sameSeeds : site.store.defaults = seeds
  opens : site.disk.writable path = .ok location

structure Rests (path : Path) (seeds : Entries) (location : Location) (site : Site) : Prop
    extends Ready path seeds location site where
  encodable : site.store.entries.Encodable
  file : ∃ disk : Disk, disk.writable path = .ok location ∧
    site.disk = disk.put location (.file site.store.entries.serialize.utf8)

variable {path : Path} {seeds : Entries} {location : Location} {site : Site}

theorem Ready.proper (ready : Ready path seeds location site) : site.store.path.Proper :=
  ready.samePath.symm ▸ Disk.proper_of_writable ready.opens

theorem visit_rests (ready : Ready path seeds location site) (encodable : seeds.Encodable)
    {visit : Visit} (edits : ∀ edit ∈ visit.edits, edit.Encodable) :
    Rests path seeds location (site.visit visit) := by
  obtain ⟨loaded, saved, visited⟩ := site.visit_exact ready.proper visit
  have loads := visited.loads
  rw [ready.sameSeeds] at loads
  have whole : (site.visit visit).store.entries.Encodable := by
    rw [Entries.encodable_iff]
    intro key value found
    have start := (Entries.encodable_iff _).mp (Entries.load_encodable encodable loads)
    exact replay_encodable start edits ((congrFun visited.held key).symm.trans found)
  have written := visited.saves
  rw [ready.samePath, Entries.save_encodable whole ready.opens] at written
  have disk : (site.visit visit).disk =
      site.disk.put location (.file (site.visit visit).store.entries.serialize.utf8) := by
    rw [visited.disk]
    cases written
    rfl
  exact {
    samePath := visited.path.trans ready.samePath
    sameSeeds := visited.defaults.trans ready.sameSeeds
    opens := disk ▸ Disk.writable_put ready.opens _
    encodable := whole
    file := ⟨site.disk, ready.opens, disk⟩ }

theorem visitAll_ready (ready : Ready path seeds location site) (encodable : seeds.Encodable)
    {visits : List Visit} (edits : ∀ visit ∈ visits, ∀ edit ∈ visit.edits, edit.Encodable) :
    Ready path seeds location (site.visitAll visits) := by
  induction visits generalizing site with
  | nil => exact ready
  | cons visit rest ih =>
    obtain ⟨first, later⟩ := List.forall_mem_cons.mp edits
    exact ih (visit_rests ready encodable first).toReady later

-- The next open finds the seeds overridden by what fitted on a line each.
theorem enter_rests (rests : Rests path seeds location site) (next : Visit) :
    (site.enter next).store.entries = seeds.override site.store.entries.fitting := by
  obtain ⟨disk, opens, file⟩ := rests.file
  obtain ⟨notices, finds, _⟩ := Entries.load_serialized_over rests.encodable opens seeds
  obtain ⟨loaded, loads, entered⟩ := site.enter_exact rests.proper next
  rw [rests.samePath, rests.sameSeeds, file] at loads
  cases loads.symm.trans finds
  rw [entered]

-- What lasts and is not edited is held at every later moment of the next session.
theorem inside_lasting (rests : Rests path seeds location site) (next : Visit)
    {key : Text} {held : Option Text} (lasting : Entries.Lasting seeds key held)
    (found : site.store.get? key = held) {edits : List Edit}
    (spared : ∀ edit ∈ edits, edit.Spares key held) :
    ((site.enter next).edit edits).store.get? key = held := by
  obtain ⟨loaded, saved, visited⟩ := site.visit_exact rests.proper next
  rw [visited.edited, ← visited.entered, enter_rests rests next]
  exact replay_spared spared (Entries.find?_reloaded lasting found)

-- And so it is held at the end of every later session.
theorem visitAll_lasting (rests : Rests path seeds location site) (encodable : seeds.Encodable)
    {visits : List Visit} (edits : ∀ visit ∈ visits, ∀ edit ∈ visit.edits, edit.Encodable)
    {key : Text} {held : Option Text} (lasting : Entries.Lasting seeds key held)
    (found : site.store.get? key = held)
    (spared : ∀ edit ∈ visits.flatMap Visit.edits, edit.Spares key held) :
    Rests path seeds location (site.visitAll visits) ∧
      (site.visitAll visits).store.get? key = held := by
  induction visits generalizing site with
  | nil => exact ⟨rests, found⟩
  | cons visit rest ih =>
    obtain ⟨first, later⟩ := List.forall_mem_cons.mp edits
    rw [List.flatMap_cons, List.forall_mem_append] at spared
    obtain ⟨loaded, saved, visited⟩ := site.visit_exact rests.proper visit
    have kept : (site.visit visit).store.get? key = held := by
      rw [visited.held, ← visited.edited]
      exact inside_lasting rests visit lasting found spared.1
    exact ih (visit_rests rests.toReady encodable first) later kept spared.2

-- What one edit of a session leaves is held at its end, when the edits behind it spare it.
theorem visit_edited (ready : Ready path seeds location site) {visit : Visit}
    {first rest : List Edit} {edit : Edit} (shape : visit.edits = first ++ edit :: rest) {key : Text}
    {held : Option Text} (leaves : ∀ map, edit.apply map key = held)
    (spared : ∀ edit ∈ rest, edit.Spares key held) : (site.visit visit).store.get? key = held := by
  obtain ⟨loaded, saved, visited⟩ := site.visit_exact ready.proper visit
  rw [visited.held, shape, replay_append]
  change replay (edit.apply (replay loaded.entries.find? first)) rest key = held
  exact replay_spared spared (leaves _)

-- What an edit leaves and no later one touches is held from then on, if it lasts.
theorem later_lasting (ready : Ready path seeds location site) (encodable : seeds.Encodable)
    {visit : Visit} (written : ∀ edit ∈ visit.edits, edit.Encodable) {between : List Visit}
    (later : ∀ visit ∈ between, ∀ edit ∈ visit.edits, edit.Encodable) (next : Visit) {key : Text}
    {held : Option Text} (lasting : Entries.Lasting seeds key held) {first rest done : List Edit}
    {edit : Edit} (shape : visit.edits = first ++ edit :: rest)
    (leaves : ∀ map, edit.apply map key = held)
    (spared : ∀ edit ∈ rest ++ between.flatMap Visit.edits ++ done, edit.Spares key held) :
    ((((site.visit visit).visitAll between).enter next).edit done).store.get? key = held := by
  obtain ⟨closed, inside⟩ := List.forall_mem_append.mp spared
  obtain ⟨same, others⟩ := List.forall_mem_append.mp closed
  have rests := visit_rests ready encodable written
  have found := visit_edited ready shape leaves same
  obtain ⟨restsLater, kept⟩ := visitAll_lasting rests encodable later lasting found others
  exact inside_lasting restsLater next lasting kept inside

end Site

-- Any chain of sessions at one path: an open finds the seeds, overridden by what the last
-- close held and could write on one line. So an entry lasts until its key is edited again,
-- a removed key stays away until it is set again, and a removed seed is back at once.
theorem entries_persist (path : Path) (location : Location) (seeds : Entries) (disk : Disk)
    (opens : disk.writable path = .ok location) (encodable : seeds.Encodable)
    (before between : List Visit) (visit next : Visit)
    (edits : ∀ session ∈ before ++ visit :: between, ∀ edit ∈ session.edits, edit.Encodable) :
    let closed := ((Site.fresh path seeds disk).visitAll before).visit visit
    let later (done : List Edit) := ((closed.visitAll between).enter next).edit done
    let since (rest done : List Edit) := rest ++ between.flatMap Visit.edits ++ done
    (closed.enter next).store.entries = seeds.override closed.store.entries.fitting ∧
      (∀ key value first rest done, visit.edits = first ++ .set key value :: rest →
        .newline ∉ key → .newline ∉ value → (∀ edit ∈ since rest done, edit.key ≠ key) →
        (later done).store.get? key = some value) ∧
      (∀ key first rest done, visit.edits = first ++ .remove key :: rest →
        seeds.find? key = none → (∀ value, .set key value ∉ since rest done) →
        (later done).store.get? key = none) ∧
      (∀ key value first rest, visit.edits = first ++ .remove key :: rest →
        seeds.find? key = some value → (∀ value, .set key value ∉ rest) →
        (closed.enter next).store.get? key = some value) := by
  intro closed later since
  obtain ⟨earlier, now⟩ := List.forall_mem_append.mp edits
  obtain ⟨here, behind⟩ := List.forall_mem_cons.mp now
  have start : Site.Ready path seeds location (Site.fresh path seeds disk) := ⟨rfl, rfl, opens⟩
  have ready := Site.visitAll_ready start encodable earlier
  have rests : Site.Rests path seeds location closed := Site.visit_rests ready encodable here
  refine ⟨Site.enter_rests rests next, ?_, ?_, ?_⟩
  · intro key value first rest done shape inKey inValue other
    have lasting : Entries.Lasting seeds key (some value) := ⟨inKey, inValue⟩
    exact Site.later_lasting ready encodable here behind next lasting shape (fun map => if_pos rfl)
      (fun edit among same => absurd same (other edit among))
  · intro key first rest done shape absent unset
    have lasting : Entries.Lasting seeds key none := absent
    exact Site.later_lasting ready encodable here behind next lasting shape (fun map => if_pos rfl)
      (fun edit among _ => ⟨rfl, fun value same => unset value (same ▸ among)⟩)
  · intro key value first rest shape seed unset
    have gone : closed.store.get? key = none :=
      Site.visit_edited ready shape (fun map => if_pos rfl)
        (fun edit among _ => ⟨rfl, fun value same => unset value (same ▸ among)⟩)
    rw [get?, Site.enter_rests rests next, Entries.find?_override, Entries.find?_fitting_absent gone]
    exact seed

-- Three sessions over a file of junk: an entry set in the first outlives a second one that
-- tries to slip another value in behind a newline, and the seed that was removed is back.
theorem chained_sessions_persist :
    let junk : Disk := ⟨[(Entries.keptPlace, .file [0x22, 0xFF, 0x0A, 0x2F])], []⟩
    let seeds := Entries.ofList [("seed", "0")]
    let visit : Visit := ⟨false, [.set "a" "1", .remove "seed"]⟩
    let slip : Visit := ⟨true, [.set "b" "2\"\n\"a\":\"3"]⟩
    let next : Visit := ⟨false, []⟩
    let closed := ((Site.fresh Entries.keptFile seeds junk).visitAll []).visit visit
    junk.writable Entries.keptFile = .ok Entries.keptPlace ∧ seeds.Encodable ∧
      (((closed.visitAll [slip]).enter next).edit []).store.get? "a" = some (Text.ofString "1") ∧
      (closed.enter next).store.get? "seed" = some (Text.ofString "0") := by
  intro junk seeds visit slip next closed
  have opens : junk.writable Entries.keptFile = .ok Entries.keptPlace := rfl
  have encodable : seeds.Encodable := by decide
  have edits : ∀ session ∈ [] ++ visit :: [slip], ∀ edit ∈ session.edits, edit.Encodable := by decide
  obtain ⟨_, keeps, _, returns⟩ := entries_persist Entries.keptFile Entries.keptPlace seeds junk opens
    encodable [] [slip] visit next edits
  refine ⟨opens, encodable, ?_, ?_⟩
  · exact keeps "a" "1" [] [.remove "seed"] [] rfl (by decide) (by decide) (by decide)
  · exact returns "seed" "0" [.set "a" "1"] [] rfl rfl (fun value => List.not_mem_nil)

end Store

end LineShell
