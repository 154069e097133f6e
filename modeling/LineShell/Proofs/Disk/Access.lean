import LineShell.Disk.Access

namespace LineShell.Disk

theorem writable_exact {disk : Disk} {path : Path} {location : Location}
    (opens : disk.writable path = .ok location) :
    disk.locate path = .ok location ∧ disk.find? location ≠ some .directory := by
  unfold writable at opens
  split at opens
  · cases opens
  · rename_i place located
    split at opens
    · cases opens
    · rename_i other
      cases opens
      exact ⟨located, other⟩

theorem writable_below {disk : Disk} {path : Path} {location : Location}
    (opens : disk.writable path = .ok location) : location ≠ [] :=
  fun root => (writable_exact opens).2 (by rw [root]; rfl)

theorem find?_put_here (disk : Disk) {location : Location} (below : location ≠ []) (node : Node) :
    (disk.put location node).find? location = some node := by
  simp [find?_put, below]

theorem find?_put_other (disk : Disk) {location other : Location} (apart : other ≠ location)
    (node : Node) : (disk.put location node).find? other = disk.find? other := by
  by_cases root : other = []
  · simp [root, find?]
  · simp [find?_put, root, apart]

-- A path leads through directories only: where none of them is lost, it leads on.
theorem walk_stays {disk next : Disk}
    (stays : ∀ location, disk.find? location = some .directory → next.find? location = some .directory)
    {location place : Location} {names : List Text} (leads : disk.walk location names = .ok place) :
    next.walk location names = .ok place := by
  induction names generalizing location with
  | nil => exact leads
  | cons name rest ih =>
    rw [walk] at leads
    split at leads
    · cases leads
    · cases leads
    · rename_i directory
      rw [walk, stays location directory]
      dsimp only
      split at leads
      · rename_i up
        rw [if_pos up]
        exact ih leads
      · rename_i down
        rw [if_neg down]
        split at leads
        · cases leads
        · rename_i short
          rw [if_neg short]
          exact ih leads

theorem start_of_working {disk next : Disk} (working : next.working = disk.working) (anchor : Anchor) :
    next.start anchor = disk.start anchor := by
  cases anchor with
  | relative => exact working
  | root => rfl
  | doubleRoot => rfl

theorem locate_stays {disk next : Disk} (working : next.working = disk.working)
    (stays : ∀ location, disk.find? location = some .directory → next.find? location = some .directory)
    {path : Path} {place : Location} (leads : disk.locate path = .ok place) :
    next.locate path = .ok place := by
  unfold locate at leads ⊢
  split at leads
  · cases leads
  · split at leads
    · cases leads
    · rename_i short
      rw [if_neg short, start_of_working working]
      split at leads
      · cases leads
      · rename_i location led
        cases leads
        rw [walk_stays stays led]

-- So a file put at a place that is no directory stands in no path's way that led past before.
theorem locate_put {disk : Disk} {target : Location} (free : disk.find? target ≠ some .directory)
    (node : Node) {path : Path} {place : Location} (leads : disk.locate path = .ok place) :
    (disk.put target node).locate path = .ok place := by
  have stays (location : Location) (directory : disk.find? location = some .directory) :
      (disk.put target node).find? location = some .directory := by
    have other : location ≠ target := fun same => free (same ▸ directory)
    rwa [find?_put_other disk other]
  have working : (disk.put target node).working = disk.working := rfl
  exact locate_stays working stays leads

-- A refusal names the path that was asked for.
theorem locate_refused {disk : Disk} {path place : Path} {refusal : Refusal}
    (refused : disk.locate path = .error (.refused refusal place)) : place = path := by
  unfold locate at refused
  split at refused
  · cases refused
  · split at refused
    · cases refused
      rfl
    · split at refused
      · cases refused
        rfl
      · cases refused

theorem read_refused {disk : Disk} {path place : Path} {refusal : Refusal}
    (refused : disk.read path = .error (.refused refusal place)) : place = path := by
  unfold read at refused
  split at refused
  · rename_i located
    cases refused
    exact locate_refused located
  · split at refused
    · cases refused
      rfl
    · cases refused
      rfl
    · cases refused

theorem write_ok {disk : Disk} {path : Path} {location : Location}
    (opens : disk.writable path = .ok location) (content : Bytes) :
    disk.write path content = .ok (disk.put location (.file content)) := by
  rw [write, opens]
  rfl

-- What was written is what is read next.
theorem read_put {disk : Disk} {path : Path} {location : Location}
    (opens : disk.writable path = .ok location) (content : Bytes) :
    (disk.put location (.file content)).read path = .ok content := by
  obtain ⟨located, free⟩ := writable_exact opens
  rw [read, locate_put free _ located]
  dsimp only
  rw [find?_put_here disk (writable_below opens)]

theorem replace_same {location : Location} {node : Node} {nodes : List (Location × Node)}
    (stands : lookup location nodes = some node) : replace location node nodes = nodes := by
  induction nodes with
  | nil => cases stands
  | cons head rest ih =>
    rw [lookup] at stands
    rw [replace]
    split at stands
    · rename_i here
      cases stands
      subst here
      rw [if_pos rfl]
    · rename_i elsewhere
      rw [if_neg elsewhere, ih stands]

variable {disk : Disk} {path : Path} {location : Location}

-- What stands at its place already can be put there again.
theorem put_same {node : Node} (below : location ≠ []) (stands : disk.find? location = some node) :
    disk.put location node = disk := by
  rw [find?, if_neg below] at stands
  rw [put, replace_same stands]

theorem replace_replace (location : Location) (first second : Node) (nodes : List (Location × Node)) :
    replace location second (replace location first nodes) = replace location second nodes := by
  induction nodes with
  | nil => simp [replace]
  | cons head rest ih =>
    obtain ⟨place, old⟩ := head
    by_cases here : place = location
    · simp [replace, here]
    · simp [replace, here, ih]

theorem put_put (disk : Disk) (location : Location) (first second : Node) :
    (disk.put location first).put location second = disk.put location second := by
  simp [put, replace_replace]

theorem read_located {content : Bytes} (opens : disk.writable path = .ok location)
    (reads : disk.read path = .ok content) : disk.find? location = some (.file content) := by
  rw [read, (writable_exact opens).1] at reads
  dsimp only at reads
  split at reads
  · cases reads
  · cases reads
  · rename_i stands
    cases reads
    exact stands

theorem writable_put (opens : disk.writable path = .ok location) (content : Bytes) :
    (disk.put location (.file content)).writable path = .ok location := by
  obtain ⟨located, free⟩ := writable_exact opens
  rw [writable, locate_put free _ located]
  dsimp only
  rw [find?_put_here disk (writable_below opens)]

-- The bytes of the file at a place: none where there is no file.
def held (disk : Disk) (location : Location) : Bytes :=
  match disk.find? location with
  | some (.file content) => content
  | _ => []

theorem held_put (below : location ≠ []) (content : Bytes) :
    (disk.put location (.file content)).held location = content := by
  rw [held, find?_put_here disk below]

theorem append_ok (opens : disk.writable path = .ok location) (content : Bytes) :
    disk.append path content = .ok (disk.put location (.file (disk.held location ++ content))) := by
  rw [append, opens, held, Except.map]
  cases disk.find? location with
  | none => rfl
  | some node => cases node <;> rfl

end LineShell.Disk
