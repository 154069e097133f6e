import LineShell.Interpreter
import LineShell.Proofs.Settings.Lookup

namespace LineShell

-- The texts that a value lists: its items or its keys as they are displayed, and of a text its
-- code points. Other values list nothing.
inductive Value.Lists : Value → List Text → Prop where
  | text (t : Text) : Lists (.text t) (t.map fun c => [c])
  | items (items : List Value) : Lists (.list items) (items.map Value.display)
  | keys (fields : List (Key × Value)) : Lists (.map fields) (fields.map fun field => field.1.display)

namespace Settings

-- The fields of the map at a path, and none where there is no map.
inductive Section (settings : Settings) (path : Text) : List (Key × Value) → Prop where
  | given {fields : List (Key × Value)} (found : settings.Found path (.map fields)) :
      Section settings path fields
  | absent (noMap : ¬ ∃ fields, settings.Found path (.map fields)) : Section settings path []

def fieldsAt (settings : Settings) (path : Text) : List (Key × Value) :=
  match settings.find? path with
  | some (.map fields) => fields
  | _ => []

-- All that asking for the triggers can come to.
inductive Triggers (settings : Settings) : Except SettingsError (List Text) → Prop where
  | default (blank : ∀ value, settings.Found "commands.quit.triggers" value → value.isBlank = true) :
      Triggers settings (.ok defaultQuitTriggers)
  | listed {value : Value} {texts : List Text} (found : settings.Found "commands.quit.triggers" value)
      (given : value.isBlank = false) (lists : value.Lists texts) : Triggers settings (.ok texts)
  | single {value : Value} (found : settings.Found "commands.quit.triggers" value)
      (given : value.isBlank = false) (other : ∀ texts, ¬ value.Lists texts) :
      Triggers settings (.error (.notIterable value))

-- Where triggers are given that are not blank, they are a list of some kind.
def TriggersListed (settings : Settings) : Prop :=
  ∀ value, settings.Found "commands.quit.triggers" value →
    value.isBlank = true ∨ ∃ texts, value.Lists texts

variable {settings : Settings} {fields : List (Key × Value)} {name path : Text} {value : Value}

-- A name without a dot is a path of one part.
theorem section?_map (named : name ≠ []) (plain : .dot ∉ name) :
    Settings.section? ⟨.map fields⟩ name = .ok (find? ⟨.map fields⟩ name) := by
  rw [find?, if_neg named, Text.pieces_clean plain, Value.follow_cons]
  cases held : Value.field? name fields <;> simp [section?, held, Value.follow]

-- What is asked for as a map is there with its fields, and anything else counts as none.
theorem fieldsAt_section (named : path ≠ []) (settings : Settings) :
    settings.Section path (settings.fieldsAt path) := by
  rw [fieldsAt]
  split
  · rename_i fields there
    exact .given ((find?_eq_some named).mp there)
  · rename_i other
    refine .absent ?_
    rintro ⟨fields, map⟩
    exact other fields ((find?_eq_some named).mpr map)

theorem texts_section (fields : List (Key × Value)) :
    ∃ given, texts ⟨.map fields⟩ = .ok given ∧ Section ⟨.map fields⟩ "texts" given := by
  have named : Text.ofString "texts" ≠ [] := by decide
  refine ⟨fieldsAt ⟨.map fields⟩ "texts", ?_, fieldsAt_section named ⟨.map fields⟩⟩
  rw [texts, section?_map named (by decide)]
  rfl

theorem seeds_section (settings : Settings) : ∃ given, settings.Section "environment.seed" given ∧
    settings.seeds = .ofList (given.map fun field => (field.1.display, field.2.display)) := by
  refine ⟨settings.fieldsAt "environment.seed", fieldsAt_section (by decide) settings, ?_⟩
  rw [seeds, get, fieldsAt]
  cases there : settings.find? "environment.seed" with
  | none => rfl
  | some value => cases value <;> rfl

theorem system_map_iff (fields : List (Key × Value)) :
    ∃ value, system ⟨.map fields⟩ = .ok value ∧ ((∃ sections, value = .map sections) ↔
      ∀ given, Found ⟨.map fields⟩ "system" given → ∃ sections, given = .map sections) := by
  have named : Text.ofString "system" ≠ [] := by decide
  refine ⟨_, by rw [system, section?_map named (by decide)]; rfl, ?_⟩
  cases there : find? ⟨.map fields⟩ (Text.ofString "system") with
  | none =>
    refine iff_of_true ⟨[], rfl⟩ fun given found => ?_
    rw [(find?_eq_some named).mpr found] at there
    cases there
  | some value =>
    have found := (find?_eq_some named).mp there
    constructor
    · rintro map given other
      rw [← found_unique named found other]
      exact map
    · intro maps
      exact maps value found

theorem quitTriggers_sound (settings : Settings) : settings.Triggers settings.quitTriggers := by
  have named : Text.ofString "commands.quit.triggers" ≠ [] := by decide
  have asked := get_cases named settings .null
  rw [quitTriggers]
  generalize settings.get "commands.quit.triggers" .null = value at asked ⊢
  rcases asked with found | ⟨nothing, rfl⟩
  · dsimp only
    split
    · rename_i blank
      refine .default fun other also => ?_
      rwa [← found_unique named found also]
    · rename_i present
      have given : value.isBlank = false := Bool.eq_false_iff.mpr present
      cases value with
      | text t => exact .listed found given (.text t)
      | list items => exact .listed found given (.items items)
      | map fields => exact .listed found given (.keys fields)
      | null | bool _ | int _ | float _ =>
        refine .single found given fun texts lists => ?_
        cases lists
  · exact .default fun value found => absurd ⟨value, found⟩ nothing

theorem quitTriggers_returns_iff (settings : Settings) :
    (∃ triggers, settings.quitTriggers = .ok triggers) ↔ settings.TriggersListed := by
  have named : Text.ofString "commands.quit.triggers" ≠ [] := by decide
  have asked := quitTriggers_sound settings
  generalize settings.quitTriggers = answer at asked ⊢
  cases asked with
  | default blank => exact iff_of_true ⟨_, rfl⟩ fun value found => .inl (blank value found)
  | listed found given lists =>
    refine iff_of_true ⟨_, rfl⟩ fun value also => .inr ?_
    rw [← found_unique named found also]
    exact ⟨_, lists⟩
  | single found given other =>
    refine iff_of_false (fun ⟨_, same⟩ => by cases same) fun listed => ?_
    rcases listed _ found with blank | ⟨texts, lists⟩
    · rw [blank] at given
      cases given
    · exact other texts lists

theorem made_iff (fields : List (Key × Value)) (path : Path) :
    (∃ interpreter, Interpreter.ofSettings path ⟨.map fields⟩ = .ok interpreter) ↔
      ∃ triggers, quitTriggers ⟨.map fields⟩ = .ok triggers := by
  obtain ⟨given, spoken, _⟩ := texts_section fields
  rw [Interpreter.ofSettings, spoken]
  cases quitTriggers ⟨.map fields⟩ with
  | ok triggers => exact iff_of_true ⟨_, rfl⟩ ⟨_, rfl⟩
  | error error =>
    refine iff_of_false ?_ ?_ <;>
    · rintro ⟨_, same⟩
      cases same

theorem entriesName_shown (settings : Settings) : ∃ value, settings.entriesName = value.display ∧
    (settings.Found "environment.filename" value ∨
      (¬ ∃ given, settings.Found "environment.filename" given) ∧ value = .text defaultEntriesName) :=
  ⟨_, rfl, get_cases (by decide) settings _⟩

-- What is asked of settings that are a map is answered whatever stands in them, with two
-- exceptions. Texts and seeds that are no map count as none and a name is what it displays as, but
-- a system section is handed on as it is, and triggers are given up where they are neither blank
-- nor a list of any kind. An interpreter can be made of the settings exactly when the triggers are
-- not given up.
theorem malformed_sections_fall_back_iff (fields : List (Key × Value)) :
    let settings : Settings := ⟨.map fields⟩
    (∃ given, settings.texts = .ok given ∧ settings.Section "texts" given) ∧
    (∃ given, settings.Section "environment.seed" given ∧
      settings.seeds = .ofList (given.map fun field => (field.1.display, field.2.display))) ∧
    (∃ value, settings.entriesName = value.display ∧
      (settings.Found "environment.filename" value ∨
        (¬ ∃ given, settings.Found "environment.filename" given) ∧
          value = .text defaultEntriesName)) ∧
    (∃ value, settings.system = .ok value ∧ ((∃ sections, value = .map sections) ↔
      ∀ given, settings.Found "system" given → ∃ sections, given = .map sections)) ∧
    settings.Triggers settings.quitTriggers ∧
    ((∃ triggers, settings.quitTriggers = .ok triggers) ↔ settings.TriggersListed) ∧
    ∀ path, (∃ interpreter, Interpreter.ofSettings path settings = .ok interpreter) ↔
      settings.TriggersListed := by
  intro settings
  have returns : (∃ triggers, settings.quitTriggers = .ok triggers) ↔ settings.TriggersListed :=
    quitTriggers_returns_iff settings
  exact ⟨texts_section fields, seeds_section settings, entriesName_shown settings,
    system_map_iff fields, quitTriggers_sound settings, returns,
    fun path => (made_iff fields path).trans returns⟩

-- A null for the system section is no map and is handed on, and a number for the triggers is no
-- list and leaves no interpreter to be made.
theorem null_kept_and_number_given_up :
    let settings : Settings := ⟨.map [(.text "system", .null),
      (.text "commands", .map [(.text "quit", .map [(.text "triggers", .int 5)])])]⟩
    settings.system = .ok .null ∧ settings.quitTriggers = .error (.notIterable (.int 5)) ∧
      (SettingsError.notIterable (.int 5)).message = "'int' object is not iterable" ∧
      ¬ (∃ sections, settings.system = .ok (.map sections)) ∧
      ¬ (∃ triggers, settings.quitTriggers = .ok triggers) ∧
      ∀ path, ¬ ∃ interpreter, Interpreter.ofSettings path settings = .ok interpreter := by
  intro settings
  have kept : settings.system = .ok .null := rfl
  have refused : settings.quitTriggers = .error (.notIterable (.int 5)) := rfl
  have untold : ¬ ∃ triggers, settings.quitTriggers = .ok triggers := by
    rintro ⟨triggers, told⟩
    rw [refused] at told
    cases told
  refine ⟨kept, refused, by decide, ?_, untold, fun path made => untold ((made_iff _ path).mp made)⟩
  rintro ⟨sections, map⟩
  rw [kept] at map
  cases map

end Settings

end LineShell
