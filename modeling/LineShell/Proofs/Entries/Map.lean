import LineShell.Entries.Basic

namespace LineShell.Entries

theorem lookup_of_absent {key : Text} {pairs : List (Text × Text)}
    (absent : ∀ pair ∈ pairs, pair.1 ≠ key) : lookup key pairs = none := by
  induction pairs with
  | nil => rfl
  | cons head rest ih =>
    obtain ⟨first, later⟩ := List.forall_mem_cons.mp absent
    rw [lookup, if_neg first, ih later]

theorem lookup_mem {key value : Text} {pairs : List (Text × Text)}
    (found : lookup key pairs = some value) : (key, value) ∈ pairs := by
  induction pairs with
  | nil => cases found
  | cons head rest ih =>
    rw [lookup] at found
    split at found
    · rename_i same
      cases found
      subst same
      exact List.mem_cons_self
    · exact List.mem_cons_of_mem _ (ih found)

theorem lookup_eq_none_iff {key : Text} {pairs : List (Text × Text)} :
    lookup key pairs = none ↔ ∀ value, (key, value) ∉ pairs := by
  constructor
  · intro none value present
    induction pairs with
    | nil => cases present
    | cons head rest ih =>
      rw [lookup] at none
      split at none
      · cases none
      · rename_i differ
        rcases List.mem_cons.mp present with rfl | later
        · exact differ rfl
        · exact ih none later
  · intro absent
    apply lookup_of_absent
    rintro ⟨k, v⟩ present rfl
    exact absent v present

theorem lookup_place (key value : Text) (pairs : List (Text × Text)) (wanted : Text) :
    lookup wanted (place key value pairs) = if wanted = key then some value else lookup wanted pairs := by
  induction pairs with
  | nil => simp [place, lookup, eq_comm (a := key)]
  | cons head rest ih =>
    obtain ⟨k, v⟩ := head
    rw [place]
    split
    · rename_i same
      subst same
      by_cases here : wanted = k
      · simp [lookup, here]
      · simp [lookup, here, Ne.symm here]
    · rename_i differ
      split
      · by_cases here : wanted = key
        · simp [lookup, here]
        · simp [lookup, here, Ne.symm here]
      · by_cases here : wanted = key
        · subst here
          simp [lookup, differ, ih]
        · by_cases first : k = wanted
          · simp [lookup, first, here]
          · simp [lookup, first, here, ih]

theorem place_length {key : Text} {pairs : List (Text × Text)} (value : Text)
    (absent : lookup key pairs = none) : (place key value pairs).length = pairs.length + 1 := by
  induction pairs with
  | nil => rfl
  | cons head rest ih =>
    obtain ⟨k, v⟩ := head
    rw [lookup] at absent
    split at absent
    · cases absent
    · rename_i differ
      rw [place, if_neg differ]
      split
      · rfl
      · rw [List.length_cons, ih absent, List.length_cons]

@[simp] theorem find?_empty (key : Text) : empty.find? key = none := rfl

-- The keys ascend, so that a key has no second value further behind.
theorem mem_pairs (entries : Entries) (key value : Text) :
    (key, value) ∈ entries.pairs ↔ entries.find? key = some value := by
  obtain ⟨pairs, ascending⟩ := entries
  constructor
  · intro present
    change lookup key pairs = some value
    induction pairs with
    | nil => cases present
    | cons head rest ih =>
      obtain ⟨first, tail⟩ := List.pairwise_cons.mp ascending
      rw [lookup]
      rcases List.mem_cons.mp present with rfl | later
      · rw [if_pos rfl]
      · rw [if_neg (Text.ne_of_lt (first _ later)), ih tail later]
  · exact lookup_mem

-- Maps that answer alike are the same map.
theorem ext_find? {one two : Entries} (same : ∀ key, one.find? key = two.find? key) : one = two := by
  have members (pair : Text × Text) : pair ∈ one.pairs ↔ pair ∈ two.pairs := by
    obtain ⟨key, value⟩ := pair
    rw [mem_pairs, mem_pairs, same]
  have nodup (entries : Entries) : entries.pairs.Nodup :=
    entries.ascending.imp fun less equal => Text.ne_of_lt less (congrArg Prod.fst equal)
  have permuted := (List.perm_ext_iff_of_nodup (nodup one) (nodup two)).mpr members
  obtain ⟨pairs, ascending⟩ := one
  obtain ⟨others, otherwise⟩ := two
  have equal : pairs = others := permuted.eq_of_pairwise
    (fun _ _ _ _ less more => absurd more (Text.lt_asymm less)) ascending otherwise
  subst equal
  rfl

theorem find?_insert (entries : Entries) (key value wanted : Text) :
    (entries.insert key value).find? wanted =
      if wanted = key then some value else entries.find? wanted :=
  lookup_place key value entries.pairs wanted

theorem lookup_erase (key wanted : Text) (pairs : List (Text × Text)) :
    lookup wanted (pairs.filter (fun pair => pair.1 ≠ key)) =
      if wanted = key then none else lookup wanted pairs := by
  induction pairs with
  | nil => simp [lookup]
  | cons head rest ih =>
    obtain ⟨k, v⟩ := head
    rw [List.filter_cons]
    by_cases erased : k = key
    · subst erased
      by_cases here : wanted = k
      · simpa [here] using ih
      · simpa [here, lookup, Ne.symm here] using ih
    · by_cases here : k = wanted
      · subst here
        simp [erased, lookup]
      · simpa [erased, here, lookup] using ih

theorem find?_erase (entries : Entries) (key wanted : Text) :
    (entries.erase key).find? wanted = if wanted = key then none else entries.find? wanted :=
  lookup_erase key wanted entries.pairs

theorem size_insert {entries : Entries} {key : Text} (value : Text)
    (absent : entries.find? key = none) : (entries.insert key value).size = entries.size + 1 :=
  place_length value absent

theorem find?_override (lower upper : Entries) (key : Text) :
    (lower.override upper).find? key = (upper.find? key).or (lower.find? key) := by
  obtain ⟨pairs, ascending⟩ := upper
  change (lower.insertAll pairs).find? key = (lookup key pairs).or (lower.find? key)
  induction pairs generalizing lower with
  | nil => rfl
  | cons head rest ih =>
    obtain ⟨first, tail⟩ := List.pairwise_cons.mp ascending
    have step : lower.insertAll (head :: rest) = (lower.insert head.1 head.2).insertAll rest := rfl
    rw [step, ih _ tail, find?_insert, lookup]
    by_cases here : key = head.1
    · have later : lookup key rest = none := lookup_of_absent fun pair present =>
        here ▸ (Text.ne_of_lt (first pair present)).symm
      rw [later, if_pos here, if_pos here.symm]
      rfl
    · rw [if_neg here, if_neg (Ne.symm here)]

theorem override_empty (upper : Entries) : empty.override upper = upper := by
  apply ext_find?
  intro key
  rw [find?_override, find?_empty, Option.or_none]

end LineShell.Entries
