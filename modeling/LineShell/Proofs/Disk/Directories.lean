import LineShell.Proofs.Disk.Growth
import LineShell.Proofs.Disk.Proper

namespace LineShell

-- The text of a directory's path is the beginning of the texts of the paths below it, unless it
-- is written as a dot.
theorem Path.text_child (path : Path) (name : Text) :
    path.text = Path.here ∨ path.text <+: (path.child name).text := by
  obtain ⟨anchor, names⟩ := path
  have joined := Text.joined_prefix [.slash] names name
  cases anchor with
  | relative =>
    cases names with
    | nil => exact .inl rfl
    | cons first rest => exact .inr (by simpa [text, child] using joined)
  | root => exact .inr ((List.prefix_append_right_inj _).mpr joined)
  | doubleRoot => exact .inr ((List.prefix_append_right_inj _).mpr joined)

namespace Disk

variable {disk next made : Disk} {path : Path} {location : Location}

theorem isDirectory_iff : disk.isDirectory path = true ↔
    ∃ location, disk.locate path = .ok location ∧ disk.find? location = some .directory := by
  unfold isDirectory
  cases disk.locate path <;> simp

theorem Grown.isDirectory {allowed : Location → Prop} (grown : Grown allowed disk next)
    (stands : disk.isDirectory path = true) : next.isDirectory path = true := by
  obtain ⟨location, located, directory⟩ := isDirectory_iff.mp stands
  exact isDirectory_iff.mpr ⟨location, grown.locate located, grown.directory directory⟩

theorem walk_split (names more : List Text) {found : Location}
    (leads : disk.walk location (names ++ more) = .ok found) :
    ∃ middle, disk.walk location names = .ok middle ∧ disk.walk middle more = .ok found := by
  induction names generalizing location with
  | nil => exact ⟨location, rfl, leads⟩
  | cons name rest ih =>
    rw [List.cons_append, walk] at leads
    rw [walk]
    split at leads
    · cases leads
    · cases leads
    · split at leads
      · rename_i up
        simpa [up] using ih leads
      · rename_i down
        split at leads
        · cases leads
        · rename_i short
          simpa [down, short] using ih leads

-- A path that leads somewhere leads there through its directory.
theorem parent_isDirectory {name : Text} (located : disk.locate (path.child name) = .ok location) :
    disk.isDirectory path = true := by
  have leads : disk.walk (disk.start path.anchor) (path.names ++ [name]) = .ok location :=
    located_walk located
  obtain ⟨middle, above, last⟩ := walk_split path.names [name] leads
  have directory : disk.find? middle = some .directory := by
    rw [walk] at last
    split at last
    · cases last
    · cases last
    · assumption
  have proper : (path.child name).Proper ∧ (path.child name).text.bytes.length ≤ pathLimit := by
    unfold locate at located
    split at located
    · cases located
    · rename_i proper
      split at located
      · cases located
      · rename_i short
        exact ⟨proper, Nat.le_of_not_lt short⟩
  have shorter : path.Proper ∧ path.text.bytes.length ≤ pathLimit := by
    rcases path.text_child name with here | ⟨behind, whole⟩
    · rw [Path.Proper, here]
      exact ⟨by decide, by decide⟩
    · have clean := Path.proper_iff.mp proper.1
      have length := proper.2
      rw [Path.Clean, ← whole] at clean
      rw [← whole, Text.bytes, List.flatMap_append, List.length_append] at length
      refine ⟨Path.proper_iff.mpr ⟨?_, ?_⟩, by rw [Text.bytes]; omega⟩
      · exact fun inside => clean.1 (List.mem_append_left _ inside)
      · rintro ⟨c, inside, stray⟩
        exact clean.2 ⟨c, List.mem_append_left _ inside, stray⟩
  refine isDirectory_iff.mpr ⟨middle, ?_, directory⟩
  have named : PathError.of? path.text = none := shorter.1
  simp [locate, named, Nat.not_lt.mpr shorter.2, above]

-- A disk on which directories were made at some of the allowed places, where nothing was.
inductive Furnished (allowed : Location → Prop) (disk : Disk) : Disk → Prop where
  | refl : Furnished allowed disk disk
  | make {next : Disk} {location : Location} (furnished : Furnished allowed disk next)
      (among : allowed location) (absent : next.find? location = none) :
      Furnished allowed disk (next.put location .directory)

namespace Furnished

variable {allowed wider : Location → Prop} {last : Disk}

theorem trans (one : Furnished allowed disk next) (two : Furnished allowed next last) :
    Furnished allowed disk last := by
  induction two with
  | refl => exact one
  | make _ among absent ih => exact .make ih among absent

theorem mono (furnished : Furnished allowed disk next)
    (wide : ∀ location, allowed location → wider location) : Furnished wider disk next := by
  induction furnished with
  | refl => exact .refl
  | make _ among absent ih => exact .make ih (wide _ among) absent

theorem grown (furnished : Furnished allowed disk next) : Grown allowed disk next := by
  induction furnished with
  | refl => exact .refl
  | make _ among absent ih => exact .put .directory ih among (by simp [absent])

-- So each place is as it was, or it is a directory now and nothing was there.
theorem find? (furnished : Furnished allowed disk next) (location : Location) :
    next.find? location = disk.find? location ∨
      disk.find? location = none ∧ next.find? location = some .directory ∧ allowed location := by
  induction furnished with
  | refl => exact .inl rfl
  | @make middle target _ among absent ih =>
    by_cases here : location = target
    · subst here
      have below : location ≠ [] := by
        rintro rfl
        cases absent
      refine .inr ⟨?_, find?_put_here middle below _, among⟩
      rcases ih with same | ⟨none, _, _⟩
      · exact same.symm.trans absent
      · exact none
    · rwa [find?_put_other middle here]

end Furnished

theorem makeDirectory_furnished (makes : disk.makeDirectory path = .ok made) :
    Furnished (disk.Above path) disk made ∧ made.isDirectory path = true := by
  unfold makeDirectory at makes
  split at makes
  · cases makes
  · rename_i location located
    split at makes
    · cases makes
    · rename_i absent
      cases makes
      have among : disk.Above path location := ⟨path, .refl path, located_place located⟩
      have furnished : Furnished (disk.Above path) disk (disk.put location .directory) :=
        .make .refl among absent
      refine ⟨furnished, isDirectory_iff.mpr ⟨location, furnished.grown.locate located, ?_⟩⟩
      have below : location ≠ [] := by
        rintro rfl
        cases absent
      exact find?_put_here disk below _

theorem makeOrKeep_furnished (disk : Disk) (path : Path) :
    Furnished (disk.Above path) disk (disk.makeOrKeep path).2 := by
  unfold makeOrKeep
  split
  · rename_i made makes
    exact (makeDirectory_furnished makes).1
  · split
    · exact .refl
    · exact .refl
  · exact .refl

theorem makeOrKeep_done (makes : disk.makeOrKeep path = (none, made)) :
    made.isDirectory path = true := by
  unfold makeOrKeep at makes
  split at makes
  · rename_i makes'
    cases makes
    exact (makeDirectory_furnished makes').2
  · split at makes
    · rename_i stands
      cases makes
      exact stands
    · cases makes
  · cases makes

theorem makeOrKeep_failed {error : FileError} (fails : disk.makeOrKeep path = (some error, next)) :
    next = disk := by
  unfold makeOrKeep at fails
  split at fails
  · cases fails
  · split at fails
    · cases fails
    · cases fails
      rfl
  · cases fails
    rfl

theorem makeOrKeep_stands (stands : disk.isDirectory path = true) :
    disk.makeOrKeep path = (none, disk) := by
  obtain ⟨location, located, directory⟩ := isDirectory_iff.mp stands
  simp [makeOrKeep, makeDirectory, located, directory, stands]

theorem makeOrKeep_located (makes : disk.makeOrKeep path = (none, made)) :
    ∃ location, disk.locate path = .ok location := by
  cases located : disk.locate path with
  | ok location => exact ⟨location, rfl⟩
  | error error =>
    have none : disk.isDirectory path = false := by simp [isDirectory, located]
    rcases error with ⟨_ | _ | _ | _ | _, place⟩ | error <;>
      simp [makeOrKeep, makeDirectory, located, none] at makes

variable {anchor : Anchor} {name : Text} {names parents : List Text}

-- A directory is made at once, or behind the ones above it, or one of those cannot be made.
theorem ensureNames_cases (disk : Disk) (anchor : Anchor) (name : Text) (parents : List Text) :
    let path : Path := ⟨anchor, (name :: parents).reverse⟩
    let outcome := disk.ensureNames anchor (name :: parents)
    outcome = disk.makeOrKeep path ∨
      (∃ made, disk.ensureNames anchor parents = (none, made) ∧ outcome = made.makeOrKeep path) ∨
      ((disk.ensureNames anchor parents).1 ≠ none ∧ outcome = disk.ensureNames anchor parents) := by
  intro path outcome
  unfold outcome
  rw [ensureNames]
  split
  · split
    · rename_i made above
      exact .inr (.inl ⟨made, above, rfl⟩)
    · rename_i failed
      refine .inr (.inr ⟨?_, rfl⟩)
      intro made
      exact failed _ (Prod.ext made rfl)
  · exact .inl rfl

theorem ensureNames_furnished (disk : Disk) (anchor : Anchor) (names : List Text) :
    Furnished (disk.Above ⟨anchor, names.reverse⟩) disk (disk.ensureNames anchor names).2 := by
  induction names with
  | nil => exact makeOrKeep_furnished disk ⟨anchor, []⟩
  | cons name parents ih =>
    have leads : Path.Leads ⟨anchor, parents.reverse⟩ ⟨anchor, (name :: parents).reverse⟩ := by
      simp [Path.Leads]
    have above := ih.mono (above_of_leads leads)
    rcases ensureNames_cases disk anchor name parents with same | ⟨made, ensured, same⟩ | ⟨_, same⟩
    · rw [same]
      exact makeOrKeep_furnished disk _
    · rw [ensured] at above
      rw [same]
      exact above.trans ((makeOrKeep_furnished made _).mono above.grown.above)
    · rw [same]
      exact above

theorem ensureNames_done (ensured : disk.ensureNames anchor names = (none, made)) :
    made.isDirectory ⟨anchor, names.reverse⟩ = true := by
  cases names with
  | nil => exact makeOrKeep_done ensured
  | cons name parents =>
    rcases ensureNames_cases disk anchor name parents with same | ⟨above, _, same⟩ | ⟨failed, same⟩
    · exact makeOrKeep_done (same.symm.trans ensured)
    · exact makeOrKeep_done (same.symm.trans ensured)
    · rw [← same, ensured] at failed
      exact absurd rfl failed

theorem ensureNames_stands (stands : disk.isDirectory ⟨anchor, names.reverse⟩ = true) :
    disk.ensureNames anchor names = (none, disk) := by
  cases names with
  | nil => exact makeOrKeep_stands stands
  | cons name parents => rw [ensureNames, makeOrKeep_stands stands]

theorem ensureNames_above (ensured : disk.ensureNames anchor (name :: parents) = (none, made)) :
    (disk.ensureNames anchor parents).1 = none := by
  rcases ensureNames_cases disk anchor name parents with same | ⟨above, first, _⟩ | ⟨failed, same⟩
  · obtain ⟨location, located⟩ := makeOrKeep_located (same.symm.trans ensured)
    have child : (⟨anchor, (name :: parents).reverse⟩ : Path) = (Path.mk anchor parents.reverse).child name := by
      simp [Path.child]
    rw [child] at located
    rw [ensureNames_stands (parent_isDirectory located)]
  · rw [first]
  · rw [← same, ensured] at failed
    exact absurd rfl failed

-- What was made of it before it failed does not help the next time.
theorem ensureNames_fails_again {error : FileError} {left : Disk}
    (fails : disk.ensureNames anchor names = (some error, left)) :
    (left.ensureNames anchor names).1 ≠ none := by
  induction names generalizing error left with
  | nil =>
    obtain rfl := makeOrKeep_failed fails
    simp [fails]
  | cons name parents ih =>
    rcases ensureNames_cases disk anchor name parents with same | ⟨made, ensured, same⟩ | ⟨_, same⟩
    · obtain rfl := makeOrKeep_failed (same.symm.trans fails)
      simp [fails]
    · have refused := same.symm.trans fails
      obtain rfl := makeOrKeep_failed refused
      have stands := ensureNames_stands (ensureNames_done ensured)
      rcases ensureNames_cases left anchor name parents with again | ⟨twice, above, again⟩ | ⟨failed, again⟩
      · rw [again, refused]
        exact Option.some_ne_none _
      · obtain rfl : left = twice := congrArg Prod.snd (stands.symm.trans above)
        rw [again, refused]
        exact Option.some_ne_none _
      · simp [stands] at failed
    · intro succeeds
      exact ih (same.symm.trans fails) (ensureNames_above (Prod.ext succeeds rfl))

theorem ensureDirectory_furnished (disk : Disk) (path : Path) :
    Furnished (disk.Above path) disk (disk.ensureDirectory path).2 := by
  simpa [ensureDirectory] using ensureNames_furnished disk path.anchor path.names.reverse

theorem ensureDirectory_done (ensured : disk.ensureDirectory path = (none, made)) :
    made.isDirectory path = true := by
  simpa using ensureNames_done ensured

theorem ensureDirectory_stands (stands : disk.isDirectory path = true) :
    disk.ensureDirectory path = (none, disk) :=
  ensureNames_stands (by simpa using stands)

theorem ensureDirectory_fails_again {error : FileError} {left : Disk}
    (fails : disk.ensureDirectory path = (some error, left)) :
    ∃ again last, left.ensureDirectory path = (some again, last) := by
  obtain ⟨again, told⟩ := Option.ne_none_iff_exists'.mp (ensureNames_fails_again fails)
  exact ⟨again, _, Prod.ext told rfl⟩

end Disk

end LineShell
