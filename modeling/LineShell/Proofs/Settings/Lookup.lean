import LineShell.Proofs.Text.Basic
import LineShell.Settings.Basic

namespace LineShell

namespace Value

-- A chain of text keys from a value down through maps to the value that it names. A key that is
-- given twice counts where it stands first.
inductive Leads : List Text → Value → Value → Prop where
  | here (value : Value) : Leads [] value value
  | through {name : Text} {names : List Text} {before after : List (Key × Value)}
      {inner value : Value} (first : .text name ∉ before.map Prod.fst)
      (leads : Leads names inner value) :
      Leads (name :: names) (.map (before ++ (.text name, inner) :: after)) value

variable {name : Text} {names more : List Text} {fields : List (Key × Value)} {value found : Value}

theorem field?_first {before : List (Key × Value)} (first : .text name ∉ before.map Prod.fst)
    (after : List (Key × Value)) : field? name (before ++ (.text name, value) :: after) = some value := by
  induction before with
  | nil => exact if_pos rfl
  | cons field rest ih =>
    obtain ⟨other, later⟩ := not_or.mp fun either => first (List.mem_cons.mpr either)
    rw [List.cons_append, field?, if_neg (Ne.symm other), ih later]

theorem field?_eq_some : field? name fields = some value ↔ ∃ before after,
    fields = before ++ (.text name, value) :: after ∧ .text name ∉ before.map Prod.fst := by
  constructor
  · intro found
    induction fields with
    | nil => cases found
    | cons field rest ih =>
      obtain ⟨key, held⟩ := field
      rw [field?] at found
      split at found
      · rename_i same
        cases found
        exact ⟨[], rest, by rw [same]; rfl, List.not_mem_nil⟩
      · rename_i other
        obtain ⟨before, after, rfl, first⟩ := ih found
        exact ⟨(key, held) :: before, after, rfl,
          List.not_mem_cons_of_ne_of_not_mem (Ne.symm other) first⟩
  · rintro ⟨before, after, rfl, first⟩
    exact field?_first first after

theorem follow_cons (name : Text) (names : List Text) (fields : List (Key × Value)) :
    follow (name :: names) (.map fields) = (field? name fields).bind (follow names) := by
  rw [follow]
  cases field? name fields <;> rfl

theorem follow_other (value : Value) (other : ∀ fields, value ≠ .map fields) :
    follow (name :: names) value = none := by
  cases value with
  | map fields => exact absurd rfl (other fields)
  | _ => rfl

theorem follow_eq_some : follow names value = some found ↔ Leads names value found := by
  constructor
  · intro followed
    induction names generalizing value with
    | nil =>
      cases followed
      exact .here _
    | cons name rest ih =>
      cases value with
      | map fields =>
        rw [follow_cons, Option.bind_eq_some_iff] at followed
        obtain ⟨inner, held, further⟩ := followed
        obtain ⟨before, after, rfl, first⟩ := field?_eq_some.mp held
        exact .through first (ih further)
      | _ => cases followed
  · intro leads
    induction leads with
    | here value => rfl
    | through first _ ih => rw [follow_cons, field?_first first, Option.bind_some, ih]

theorem follow_append (names more : List Text) (value : Value) :
    follow (names ++ more) value = (follow names value).bind (follow more) := by
  induction names generalizing value with
  | nil => rfl
  | cons name rest ih =>
    cases value with
    | map fields =>
      rw [List.cons_append, follow_cons, follow_cons, Option.bind_assoc]
      exact congrArg (Option.bind _) (funext ih)
    | _ => rfl

end Value

namespace Settings

-- What stands at a dotted path: the parts of the path between its dots, the empty ones too, are
-- a chain of keys that leads there.
def Found (settings : Settings) (path : Text) (value : Value) : Prop :=
  ∃ parts, Text.Divided .dot path parts ∧ Value.Leads parts settings.root value

variable {settings : Settings} {path rest : Text} {value : Value}

theorem find?_eq_some (named : path ≠ []) :
    settings.find? path = some value ↔ settings.Found path value := by
  simp only [find?, if_neg named, Found, Text.divided_iff, exists_eq_left, Value.follow_eq_some]

theorem found_unique (named : path ≠ []) {other : Value} (one : settings.Found path value)
    (two : settings.Found path other) : value = other :=
  Option.some.inj (((find?_eq_some named).mpr one).symm.trans ((find?_eq_some named).mpr two))

theorem get_found (named : path ≠ []) (found : settings.Found path value) (default : Value) :
    settings.get path default = value := by
  rw [get, (find?_eq_some named).mpr found, Option.getD_some]

theorem get_missing (named : path ≠ []) (missing : ¬ ∃ value, settings.Found path value)
    (default : Value) : settings.get path default = default := by
  have nothing : settings.find? path = none :=
    Option.eq_none_iff_forall_ne_some.mpr fun value same =>
      missing ⟨value, (find?_eq_some named).mp same⟩
  rw [get, nothing, Option.getD_none]

theorem get_cases (named : path ≠ []) (settings : Settings) (default : Value) :
    settings.Found path (settings.get path default) ∨
      (¬ ∃ value, settings.Found path value) ∧ settings.get path default = default := by
  by_cases there : ∃ value, settings.Found path value
  · obtain ⟨value, found⟩ := there
    rw [get_found named found]
    exact .inl found
  · exact .inr ⟨there, get_missing named there default⟩

theorem find?_append (named : path ≠ []) (more : rest ≠ []) :
    settings.find? (path ++ .dot :: rest) =
      (settings.find? path).bind fun value => find? ⟨value⟩ rest := by
  have whole : path ++ .dot :: rest ≠ [] := List.append_ne_nil_of_left_ne_nil named _
  simp only [find?, if_neg named, if_neg more, if_neg whole, Text.pieces_append,
    Value.follow_append]

-- A path through anything but a map names nothing.
theorem find?_other (settings : Settings) (path : Text)
    (other : ∀ fields, settings.root ≠ .map fields) : settings.find? path = none := by
  rw [find?]
  split
  · rfl
  · obtain ⟨part, parts, shape⟩ := List.exists_cons_of_ne_nil (Text.pieces_ne_nil .dot path)
    rw [shape, Value.follow_other _ other]

-- Looking up a path is looking up its end in the map that its front names, and comes to the
-- default where the front names no map. A path names a value exactly when its parts lead there,
-- and that value is given whatever it is. The settings may be any value, and there is always an
-- answer.
theorem dotted_lookup_composes (settings : Settings) {path rest : Text} (named : path ≠ [])
    (more : rest ≠ []) (default : Value) :
    (∀ fields, settings.Found path (.map fields) →
      settings.get (path ++ .dot :: rest) default = get ⟨.map fields⟩ rest default) ∧
    ((¬ ∃ fields, settings.Found path (.map fields)) →
      settings.get (path ++ .dot :: rest) default = default) ∧
    (∀ value, settings.find? path = some value ↔ settings.Found path value) ∧
    (∀ value, settings.Found path value → settings.get path default = value) ∧
    ((¬ ∃ value, settings.Found path value) → settings.get path default = default) := by
  refine ⟨?_, ?_, fun _ => find?_eq_some named, fun _ found => get_found named found default,
    fun missing => get_missing named missing default⟩
  · intro fields found
    rw [get, find?_append named more, (find?_eq_some named).mpr found, Option.bind_some, get]
  · intro noMap
    rw [get, find?_append named more]
    cases there : settings.find? path with
    | none => rfl
    | some value =>
      have other : ∀ fields, value ≠ .map fields := by
        rintro fields rfl
        exact noMap ⟨fields, (find?_eq_some named).mp there⟩
      rw [Option.bind_some, find?_other ⟨value⟩ rest other, Option.getD_none]

-- A path with an empty part, past keys that are no texts, to a null: the null is given, and
-- behind it there is only the default.
theorem null_found_and_passed :
    let inner : List (Key × Value) := [(.int 7, .text "x"), (.text "b", .null)]
    let settings : Settings := ⟨.map [(.null, .bool true), (.text "a", .map [(.text [], .map inner)])]⟩
    let path : Text := "a."
    let rest : Text := "b"
    let leaf : Text := "a..b"
    path ≠ [] ∧ rest ≠ [] ∧ leaf ≠ [] ∧ settings.Found path (.map inner) ∧ settings.Found leaf .null ∧
      settings.get (path ++ .dot :: rest) (.int 5) = get ⟨.map inner⟩ rest (.int 5) ∧
      settings.get leaf (.int 5) = .null ∧
      settings.get (leaf ++ .dot :: rest) (.int 5) = .int 5 := by
  intro inner settings path rest leaf
  have named : path ≠ [] := by decide
  have more : rest ≠ [] := by decide
  have deeper : leaf ≠ [] := by decide
  have front : settings.Found path (.map inner) := by
    refine ⟨["a", []], Text.divided_iff.mpr (by decide), Value.follow_eq_some.mp ?_⟩
    simp [settings, Value.follow, Value.field?]
  have null : settings.Found leaf .null := by
    refine ⟨["a", [], "b"], Text.divided_iff.mpr (by decide), Value.follow_eq_some.mp ?_⟩
    simp [settings, inner, Value.follow, Value.field?, Text.ofString]
  obtain ⟨within, _⟩ := dotted_lookup_composes settings named more (.int 5)
  obtain ⟨_, past, found, given, _⟩ := dotted_lookup_composes settings deeper more (.int 5)
  have noMap : ¬ ∃ fields, settings.Found leaf (.map fields) := by
    rintro ⟨fields, map⟩
    cases ((found _).mpr null).symm.trans ((found _).mpr map)
  exact ⟨named, more, deeper, front, null, within inner front, given _ null, past noMap⟩

end Settings

end LineShell
