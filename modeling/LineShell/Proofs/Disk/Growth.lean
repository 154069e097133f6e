import LineShell.Proofs.Disk.Access

namespace LineShell

-- A path leads to another one when it names a directory on the way, or the same place.
def Path.Leads (upper lower : Path) : Prop :=
  upper.anchor = lower.anchor ∧ upper.names <+: lower.names

theorem Path.Leads.refl (path : Path) : path.Leads path := ⟨rfl, List.prefix_rfl⟩

theorem Path.Leads.trans {upper middle lower : Path} (one : upper.Leads middle)
    (two : middle.Leads lower) : upper.Leads lower :=
  ⟨one.1.trans two.1, one.2.trans two.2⟩

theorem Path.leads_child (path : Path) (name : Text) : path.Leads (path.child name) :=
  ⟨rfl, List.prefix_append _ _⟩

theorem Path.parent_leads (path : Path) : path.parent.Leads path := ⟨rfl, List.dropLast_prefix _⟩

namespace Disk

-- Where names lead when everything on the way is a directory.
def descend (location : Location) : List Text → Location
  | [] => location
  | name :: rest =>
    descend (if name = Path.up then location.dropLast else location ++ [name.bytes]) rest

def place (disk : Disk) (path : Path) : Location := descend (disk.start path.anchor) path.names

theorem descend_append (location : Location) (first second : List Text) :
    descend location (first ++ second) = descend (descend location first) second := by
  induction first generalizing location with
  | nil => rfl
  | cons name rest ih => exact ih _

theorem descend_plain (location : Location) {names : List Text} (plain : Path.up ∉ names) :
    descend location names = location ++ names.map Text.bytes := by
  induction names generalizing location with
  | nil => exact (List.append_nil _).symm
  | cons name rest ih =>
    obtain ⟨first, later⟩ := not_or.mp fun either => plain (List.mem_cons.mpr either)
    rw [descend, if_neg (Ne.symm first), ih _ later, List.append_assoc]
    rfl

theorem place_below (disk : Disk) {upper lower : Path} {names : List Text}
    (anchor : lower.anchor = upper.anchor) (below : lower.names = upper.names ++ names)
    (plain : Path.up ∉ names) :
    disk.place lower = disk.place upper ++ names.map Text.bytes := by
  rw [place, anchor, below, descend_append, descend_plain _ plain]
  rfl

variable {disk next : Disk} {path : Path} {location : Location}

theorem place_of_working (working : next.working = disk.working) (path : Path) :
    next.place path = disk.place path := by
  rw [place, start_of_working working, place]

theorem walk_descend {names : List Text} {found : Location}
    (leads : disk.walk location names = .ok found) : found = descend location names := by
  induction names generalizing location with
  | nil =>
    cases leads
    rfl
  | cons name rest ih =>
    rw [walk] at leads
    rw [descend]
    split at leads
    · cases leads
    · cases leads
    · split at leads
      · rename_i up
        rw [if_pos up]
        exact ih leads
      · rename_i down
        rw [if_neg down]
        split at leads
        · cases leads
        · exact ih leads

theorem walk_append (names more : List Text) {found : Location}
    (leads : disk.walk location names = .ok found) :
    disk.walk location (names ++ more) = disk.walk found more := by
  induction names generalizing location with
  | nil =>
    cases leads
    rfl
  | cons name rest ih =>
    rw [walk] at leads
    rw [List.cons_append, walk]
    split at leads
    · cases leads
    · cases leads
    · split at leads
      · rename_i up
        rw [if_pos up]
        exact ih leads
      · rename_i down
        rw [if_neg down]
        split at leads
        · cases leads
        · rename_i short
          rw [if_neg short]
          exact ih leads

theorem located_walk (located : disk.locate path = .ok location) :
    disk.walk (disk.start path.anchor) path.names = .ok location := by
  unfold locate at located
  split at located
  · cases located
  · split at located
    · cases located
    · split at located
      · cases located
      · rename_i found leads
        cases located
        exact leads

theorem located_place (located : disk.locate path = .ok location) : location = disk.place path :=
  walk_descend (located_walk located)

-- A name below a directory that is there: only its own length, and that of the whole path,
-- can keep a path from leading to its place.
theorem locate_child {name : Text} (located : disk.locate path = .ok location)
    (directory : disk.find? location = some .directory) (down : name ≠ Path.up) :
    disk.locate (path.child name) =
      match PathError.of? (path.child name).text with
      | some error => .error (.improper error)
      | none =>
        if pathLimit < (path.child name).text.bytes.length ∨ nameLimit < name.bytes.length then
          .error (.refused .nameTooLong (path.child name))
        else .ok (location ++ [name.bytes]) := by
  have below : disk.walk (disk.start path.anchor) (path.names ++ [name]) =
      if nameLimit < name.bytes.length then .error .nameTooLong else .ok (location ++ [name.bytes]) := by
    rw [walk_append path.names [name] (located_walk located), walk, directory]
    exact if_neg down
  have whole : disk.walk (disk.start (path.child name).anchor) (path.child name).names =
      if nameLimit < name.bytes.length then .error .nameTooLong else .ok (location ++ [name.bytes]) :=
    below
  rw [locate, whole]
  cases PathError.of? (path.child name).text with
  | some error => rfl
  | none =>
    dsimp only
    by_cases longPath : pathLimit < (path.child name).text.bytes.length
    · rw [if_pos longPath, if_pos (.inl longPath)]
    · by_cases longName : nameLimit < name.bytes.length
      · rw [if_neg longPath, if_pos longName, if_pos (.inr longName)]
      · rw [if_neg longPath, if_neg longName, if_neg (not_or.mpr ⟨longPath, longName⟩)]

-- A disk on which something was put at some of the allowed places, never over a directory.
inductive Grown (allowed : Location → Prop) (disk : Disk) : Disk → Prop where
  | refl : Grown allowed disk disk
  | put {next : Disk} {location : Location} (node : Node) (grown : Grown allowed disk next)
      (among : allowed location) (free : next.find? location ≠ some .directory) :
      Grown allowed disk (next.put location node)

namespace Grown

variable {allowed wider : Location → Prop} {last : Disk}

theorem trans (one : Grown allowed disk next) (two : Grown allowed next last) :
    Grown allowed disk last := by
  induction two with
  | refl => exact one
  | put node _ among free ih => exact .put node ih among free

theorem mono (grown : Grown allowed disk next)
    (wide : ∀ location, allowed location → wider location) : Grown wider disk next := by
  induction grown with
  | refl => exact .refl
  | put node _ among free ih => exact .put node ih (wide _ among) free

theorem working (grown : Grown allowed disk next) : next.working = disk.working := by
  induction grown with
  | refl => rfl
  | put node _ _ _ ih => exact ih

theorem place (grown : Grown allowed disk next) (path : Path) : next.place path = disk.place path :=
  place_of_working grown.working path

-- What is not at an allowed place is as it was, and a path that led somewhere leads there still.
theorem find? (grown : Grown allowed disk next) (other : ¬ allowed location) :
    next.find? location = disk.find? location := by
  induction grown with
  | refl => rfl
  | @put next target node _ among _ ih =>
    have apart : location ≠ target := fun same => other (same ▸ among)
    rw [find?_put_other next apart, ih]

theorem directory (grown : Grown allowed disk next) (stands : disk.find? location = some .directory) :
    next.find? location = some .directory := by
  induction grown with
  | refl => exact stands
  | @put next target node _ _ free ih =>
    have other : location ≠ target := fun same => free (same ▸ ih)
    rwa [find?_put_other next other]

theorem locate (grown : Grown allowed disk next) (located : disk.locate path = .ok location) :
    next.locate path = .ok location :=
  locate_stays grown.working (fun _ => grown.directory) located

theorem locate_child {name : Text} (grown : Grown allowed disk next)
    (located : disk.locate path = .ok location) (stands : disk.find? location = some .directory)
    (down : name ≠ Path.up) : next.locate (path.child name) = disk.locate (path.child name) := by
  rw [Disk.locate_child (grown.locate located) (grown.directory stands) down,
    Disk.locate_child located stands down]

-- A file at a place that is not allowed is read, and can be written, as before.
theorem access (grown : Grown allowed disk next) (same : next.locate path = disk.locate path)
    (other : ¬ allowed (disk.place path)) :
    next.read path = disk.read path ∧ next.writable path = disk.writable path := by
  rw [Disk.read, Disk.read, Disk.writable, Disk.writable, same]
  cases located : disk.locate path with
  | error error => exact ⟨rfl, rfl⟩
  | ok location =>
    rw [← located_place located] at other
    dsimp only
    rw [grown.find? other]
    exact ⟨rfl, rfl⟩

end Grown

-- The places that a path leads through, its own included.
def Above (disk : Disk) (path : Path) (location : Location) : Prop :=
  ∃ upper : Path, upper.Leads path ∧ location = disk.place upper

theorem above_of_leads {upper : Path} (leads : upper.Leads path) :
    ∀ location, disk.Above upper location → disk.Above path location := by
  rintro location ⟨higher, before, same⟩
  exact ⟨higher, before.trans leads, same⟩

-- On the way to a path that goes on from another one stand the places on the way to that one,
-- and places below it.
theorem above_below {upper lower : Path} {names : List Text} (anchor : lower.anchor = upper.anchor)
    (below : lower.names = upper.names ++ names) (plain : Path.up ∉ names)
    (above : disk.Above lower location) :
    disk.Above upper location ∨ ∃ front last, front ++ [last] <+: names ∧
      location = disk.place upper ++ front.map Text.bytes ++ [last.bytes] := by
  obtain ⟨middle, ⟨start, before⟩, same⟩ := above
  rw [below] at before
  rcases List.prefix_or_prefix_of_prefix before (List.prefix_append _ _) with higher | further
  · exact .inl ⟨middle, ⟨start.trans anchor, higher⟩, same⟩
  obtain ⟨tail, shape⟩ := further
  rw [← shape, List.prefix_append_right_inj] at before
  rcases List.eq_nil_or_concat tail with none | ⟨front, last, split⟩
  · have whole : middle.names = upper.names := by rw [← shape, none, List.append_nil]
    exact .inl ⟨middle, ⟨start.trans anchor, whole ▸ List.prefix_rfl⟩, same⟩
  · rw [List.concat_eq_append] at split
    have place := disk.place_below (start.trans anchor) shape.symm fun up => plain (before.subset up)
    refine .inr ⟨front, last, split ▸ before, ?_⟩
    rw [same, place, split, List.map_append, List.append_assoc]
    rfl

theorem Grown.above {allowed : Location → Prop} (grown : Grown allowed disk next) :
    ∀ location, next.Above path location → disk.Above path location := by
  rintro location ⟨upper, leads, same⟩
  exact ⟨upper, leads, same.trans (grown.place upper)⟩

theorem append_grown {content : Bytes} {written : Disk}
    (appends : disk.append path content = .ok written) : Grown (disk.Above path) disk written := by
  cases opens : disk.writable path with
  | error error =>
    rw [append, opens] at appends
    cases appends
  | ok location =>
    obtain ⟨located, free⟩ := writable_exact opens
    rw [append_ok opens] at appends
    cases appends
    exact .put _ .refl ⟨path, .refl path, located_place located⟩ free

end Disk

end LineShell
