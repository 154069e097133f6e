import LineShell.Proofs.Disk.Growth

namespace LineShell

-- What is found at a place, told apart without reading it.
inductive Node.Like : Option Node → Option Node → Prop where
  | none : Like none none
  | directory : Like (some .directory) (some .directory)
  | file (first second : Bytes) : Like (some (.file first)) (some (.file second))

theorem Node.Like.refl (found : Option Node) : Node.Like found found := by
  cases found with
  | none => exact .none
  | some node => cases node <;> constructor

-- Two attempts that fail in the same way, or both succeed with related results.
inductive Agree {ε α : Type} (related : α → α → Prop) : Except ε α → Except ε α → Prop where
  | error (error : ε) : Agree related (.error error) (.error error)
  | ok {one other : α} (alike : related one other) : Agree related (.ok one) (.ok other)

theorem Agree.both {ε α : Type} {related : α → α → Prop} {first second : Except ε α} {one other : α}
    (agree : Agree related first second) (left : first = .ok one) (right : second = .ok other) :
    related one other := by
  cases agree with
  | error _ => cases left
  | ok alike =>
    cases left
    cases right
    exact alike

namespace Disk

-- Two disks that only the contents of the hidden files tell apart.
structure Alike (hidden : Location → Prop) (one other : Disk) : Prop where
  working : one.working = other.working
  like : ∀ location, Node.Like (one.find? location) (other.find? location)
  seen : ∀ location, ¬ hidden location → one.find? location = other.find? location

namespace Alike

variable {hidden : Location → Prop} {one other : Disk}

theorem refl (disk : Disk) : Alike hidden disk disk := ⟨rfl, fun _ => .refl _, fun _ _ => rfl⟩

theorem place (alike : Alike hidden one other) (path : Path) : one.place path = other.place path :=
  place_of_working alike.working path

theorem walk (alike : Alike hidden one other) (names : List Text) (location : Location) :
    one.walk location names = other.walk location names := by
  induction names generalizing location with
  | nil => rfl
  | cons name rest ih =>
    have like := alike.like location
    rw [Disk.walk, Disk.walk]
    generalize one.find? location = first at like
    generalize other.find? location = second at like
    cases like <;> simp only [ih]

theorem locate (alike : Alike hidden one other) (path : Path) : one.locate path = other.locate path := by
  rw [Disk.locate, Disk.locate, start_of_working alike.working, alike.walk]

theorem writable (alike : Alike hidden one other) (path : Path) :
    one.writable path = other.writable path := by
  rw [Disk.writable, Disk.writable, alike.locate]
  cases other.locate path with
  | error error => rfl
  | ok location =>
    have like := alike.like location
    dsimp only
    generalize one.find? location = first at like
    generalize other.find? location = second at like
    cases like <;> rfl

theorem isDirectory (alike : Alike hidden one other) (path : Path) :
    one.isDirectory path = other.isDirectory path := by
  rw [Disk.isDirectory, Disk.isDirectory, alike.locate]
  cases other.locate path with
  | error error => rfl
  | ok location =>
    have like := alike.like location
    dsimp only
    generalize one.find? location = first at like
    generalize other.find? location = second at like
    cases like <;> simp

-- What is put at a hidden place need not be the same, as long as it is of the same kind.
theorem put (alike : Alike hidden one other) {first second : Node} {location : Location}
    (like : Node.Like (some first) (some second)) (same : hidden location ∨ first = second) :
    Alike hidden (one.put location first) (other.put location second) := by
  refine ⟨alike.working, ?_, ?_⟩
  · intro place
    rw [find?_put, find?_put]
    split
    · exact .directory
    · split
      · exact like
      · exact alike.like place
  · intro place shown
    rw [find?_put, find?_put, alike.seen place shown]
    rcases same with below | same
    · have apart : place ≠ location := fun here => shown (here ▸ below)
      rw [if_neg apart, if_neg apart]
    · rw [same]

theorem write (alike : Alike hidden one other) (path : Path) (content : Bytes) :
    Agree (Alike hidden) (one.write path content) (other.write path content) := by
  rw [Disk.write, Disk.write, alike.writable]
  cases other.writable path with
  | error error => exact .error error
  | ok location => exact .ok (alike.put (.file _ _) (.inr rfl))

theorem append (alike : Alike hidden one other) {path : Path} (below : hidden (one.place path))
    (first second : Bytes) :
    Agree (Alike hidden) (one.append path first) (other.append path second) := by
  rw [Disk.append, Disk.append, alike.writable]
  cases opens : other.writable path with
  | error error => exact .error error
  | ok location =>
    have here : hidden location := by
      rw [located_place (writable_exact opens).1, ← alike.place]
      exact below
    have like := alike.like location
    refine .ok ?_
    dsimp only
    generalize one.find? location = earlier at like
    generalize other.find? location = later at like
    cases like <;> exact alike.put (.file _ _) (.inl here)

theorem makeDirectory (alike : Alike hidden one other) (path : Path) :
    Agree (Alike hidden) (one.makeDirectory path) (other.makeDirectory path) := by
  rw [Disk.makeDirectory, Disk.makeDirectory, alike.locate]
  cases other.locate path with
  | error error => exact .error error
  | ok location =>
    have like := alike.like location
    dsimp only
    generalize one.find? location = first at like
    generalize other.find? location = second at like
    cases like with
    | none => exact .ok (alike.put .directory (.inr rfl))
    | directory => exact .error _
    | file _ _ => exact .error _

-- The same is told of two attempts, and what they leave is alike.
inductive Same {α : Type} (hidden : Location → Prop) : α × Disk → α × Disk → Prop where
  | told (told : α) {one other : Disk} (alike : Alike hidden one other) :
      Same hidden (told, one) (told, other)

theorem makeOrKeep (alike : Alike hidden one other) (path : Path) :
    Same hidden (one.makeOrKeep path) (other.makeOrKeep path) := by
  rw [Disk.makeOrKeep, Disk.makeOrKeep, alike.isDirectory]
  have made := alike.makeDirectory path
  generalize one.makeDirectory path = first at made
  generalize other.makeDirectory path = second at made
  cases made with
  | ok made => exact .told none made
  | error error =>
    rcases error with ⟨refusal, place⟩ | ⟨error⟩
    · cases refusal with
      | «exists» =>
        dsimp only
        split <;> exact .told _ alike
      | _ => exact .told _ alike
    · exact .told _ alike

theorem ensureNames (alike : Alike hidden one other) (anchor : Anchor) (names : List Text) :
    Same hidden (one.ensureNames anchor names) (other.ensureNames anchor names) := by
  induction names with
  | nil => exact alike.makeOrKeep _
  | cons name parents ih =>
    let path : Path := ⟨anchor, (name :: parents).reverse⟩
    rw [Disk.ensureNames, Disk.ensureNames]
    have tried := alike.makeOrKeep path
    generalize one.makeOrKeep path = first at tried
    generalize other.makeOrKeep path = second at tried
    obtain ⟨told, same⟩ := tried
    -- Only a directory that is missing on the way leads to another attempt.
    rcases told with _ | ⟨refusal, place⟩ | ⟨error⟩
    · exact .told _ same
    · cases refusal with
      | missing =>
        dsimp only
        generalize one.ensureNames anchor parents = first at ih
        generalize other.ensureNames anchor parents = second at ih
        obtain ⟨told, made⟩ := ih
        cases told with
        | none => exact made.makeOrKeep path
        | some error => exact .told _ made
      | _ => exact .told _ same
    · exact .told _ same

theorem ensureDirectory (alike : Alike hidden one other) (path : Path) :
    Same hidden (one.ensureDirectory path) (other.ensureDirectory path) :=
  alike.ensureNames path.anchor path.names.reverse

end Alike

end Disk

end LineShell
