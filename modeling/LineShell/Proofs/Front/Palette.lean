import LineShell.Front.Palette
import LineShell.Proofs.Settings.Fallback

namespace LineShell.Palette

def classes (table : List (Text × Text)) : List Text := table.map Prod.fst

-- The class that a field is about. Only a text under a text is about one.
def restyles? : Key × Value → Option Text
  | (.text name, .text _) => some name
  | _ => none

-- All that a field can do with a table.
inductive Overrides (table : List (Text × Text)) : Key × Value → List (Text × Text) → Prop where
  | styled (name style : Text) : Overrides table (.text name, .text style) (set name style table)
  | passed {field : Key × Value} (idle : restyles? field = none) : Overrides table field table

-- The last style that the fields have for a class. A map has one at most.
def Gives (fields : List (Key × Value)) (name style : Text) : Prop :=
  ∃ before after, fields = before ++ (.text name, .text style) :: after ∧
    ∀ field ∈ after, restyles? field ≠ some name

-- What a table comes to in which fields were set, one after another. A class that is named again
-- stays where it first stood, and has the style that stands last.
structure Styled (fields : List (Key × Value)) (table : List (Text × Text)) : Prop where
  once : (classes table).Nodup
  order : classes table = (classes base ++ fields.filterMap restyles?).eraseDups
  styles : ∀ name style, (name, style) ∈ table ↔ Gives fields name style ∨
    (∀ field ∈ fields, restyles? field ≠ some name) ∧ (name, style) ∈ base

-- The fields that are to be set: those of the map at the path of the styles.
inductive Given : Option Settings → List (Key × Value) → Prop where
  | unset : Given none []
  | stands {settings : Settings} {fields : List (Key × Value)}
      (there : settings.Section "ui.theme.style" fields) : Given (some settings) fields

variable {table : List (Text × Text)} {fields : List (Key × Value)} {field : Key × Value}
  {name style other held : Text} {settings : Option Settings}

theorem set_new (new : name ∉ classes table) : set name style table = table ++ [(name, style)] := by
  induction table with
  | nil => rfl
  | cons row rest ih =>
    obtain ⟨differs, later⟩ := not_or.mp fun either => new (List.mem_cons.mpr either)
    rw [set, if_neg (Ne.symm differs), ih later, List.cons_append]

theorem classes_set (known : name ∈ classes table) : classes (set name style table) = classes table := by
  induction table with
  | nil => cases known
  | cons row rest ih =>
    obtain ⟨first, held⟩ := row
    rw [set]
    split
    · rename_i same
      rw [← same]
      rfl
    · rename_i differs
      have later : name ∈ classes rest := List.mem_of_ne_of_mem (Ne.symm differs) known
      exact congrArg (first :: ·) (ih later)

theorem mem_set (once : (classes table).Nodup) : (other, held) ∈ set name style table ↔
    other = name ∧ held = style ∨ other ≠ name ∧ (other, held) ∈ table := by
  induction table with
  | nil => simp [set]
  | cons row rest ih =>
    obtain ⟨first, shown⟩ := row
    obtain ⟨alone, once⟩ := List.nodup_cons.mp once
    have apart : (other, held) ∈ rest → other ≠ first := fun among same =>
      alone (List.mem_map.mpr ⟨_, among, same⟩)
    rw [set]
    split
    · rename_i same
      subst same
      simp only [List.mem_cons, Prod.mk.injEq]
      grind
    · rename_i differs
      simp only [List.mem_cons, Prod.mk.injEq, ih once]
      grind

theorem overrideWith_sound (table : List (Text × Text)) (field : Key × Value) :
    Overrides table field (overrideWith table field) := by
  obtain ⟨key, value⟩ := field
  cases key with
  | text name =>
    cases value with
    | text style => exact .styled name style
    | _ => exact .passed rfl
  | _ => exact .passed rfl

theorem restyles?_eq_some : restyles? field = some name ↔ ∃ style, field = (.text name, .text style) := by
  obtain ⟨key, value⟩ := field
  cases key with
  | text other => cases value <;> simp [restyles?]
  | _ => simp [restyles?]

theorem gives_concat (fields : List (Key × Value)) (field : Key × Value) (name style : Text) :
    Gives (fields ++ [field]) name style ↔ field = (.text name, .text style) ∨
      restyles? field ≠ some name ∧ Gives fields name style := by
  constructor
  · intro gives
    obtain ⟨before, after, shape, last⟩ := gives
    rcases List.eq_nil_or_concat after with rfl | ⟨more, final, rfl⟩
    · obtain ⟨-, same⟩ := List.append_inj' shape rfl
      exact .inl (List.cons.inj same).1
    · rw [List.concat_eq_append] at last
      rw [List.concat_eq_append, ← List.cons_append, ← List.append_assoc] at shape
      obtain ⟨front, same⟩ := List.append_inj' shape rfl
      obtain ⟨rfl, -⟩ := List.cons.inj same
      obtain ⟨last, idle⟩ := List.forall_mem_append.mp last
      exact .inr ⟨idle _ List.mem_cons_self, before, more, front, last⟩
  · rintro (rfl | ⟨idle, before, after, rfl, last⟩)
    · exact ⟨fields, [], rfl, List.forall_mem_nil _⟩
    · exact ⟨before, after ++ [field], by simp,
        List.forall_mem_append.mpr ⟨last, List.forall_mem_singleton.mpr idle⟩⟩

theorem unsaid_concat : (∀ said ∈ fields ++ [field], restyles? said ≠ some name) ↔
    (∀ said ∈ fields, restyles? said ≠ some name) ∧ restyles? field ≠ some name := by
  rw [List.forall_mem_append, List.forall_mem_singleton]

theorem eraseDups_known {names : List Text} (known : name ∈ names) :
    (names ++ [name]).eraseDups = names.eraseDups := by
  simp [List.eraseDups_append, List.removeAll, known]

theorem eraseDups_new {names : List Text} (new : name ∉ names) :
    (names ++ [name]).eraseDups = names.eraseDups ++ [name] := by
  simp [List.eraseDups_append, List.removeAll, new, List.eraseDups_cons]

theorem base_styled : Styled [] base where
  once := by decide +kernel
  order := by decide +kernel
  styles := by simp [Gives]

theorem overrideWith_styled (styled : Styled fields table) (field : Key × Value) :
    Styled (fields ++ [field]) (overrideWith table field) := by
  have overrides := overrideWith_sound table field
  generalize overrideWith table field = next at overrides ⊢
  cases overrides with
  | passed idle =>
    refine ⟨styled.once, ?_, fun name style => ?_⟩
    · simp [styled.order, idle]
    · have other : field ≠ (.text name, .text style) := by
        rintro rfl
        cases idle
      rw [gives_concat, unsaid_concat, styled.styles, idle]
      simp [other]
  | styled name style =>
    have about : restyles? (.text name, .text style) = some name := rfl
    have named : (fields ++ [(Key.text name, Value.text style)]).filterMap restyles? =
        fields.filterMap restyles? ++ [name] := by simp [about]
    have listed : name ∈ classes base ++ fields.filterMap restyles? ↔ name ∈ classes table := by
      rw [styled.order, List.mem_eraseDups]
    have styles : ∀ other held, (other, held) ∈ set name style table ↔
        Gives (fields ++ [(.text name, .text style)]) other held ∨
          (∀ field ∈ fields ++ [(.text name, .text style)], restyles? field ≠ some other) ∧
            (other, held) ∈ base := by
      intro other held
      rw [mem_set styled.once, gives_concat, unsaid_concat, styled.styles, about]
      by_cases same : other = name
      · simp [same, eq_comm]
      · simp [same, Ne.symm same]
    by_cases known : name ∈ classes table
    · refine ⟨(classes_set known).symm ▸ styled.once, ?_, styles⟩
      rw [classes_set known, named, ← List.append_assoc, eraseDups_known (listed.mpr known),
        styled.order]
    · have grown : classes (set name style table) = classes table ++ [name] := by
        rw [set_new known]
        exact List.map_append
      refine ⟨?_, ?_, styles⟩
      · rw [grown]
        apply List.nodup_append.mpr
        refine ⟨styled.once, by simp, ?_⟩
        intro earlier among last added same
        exact known (List.mem_singleton.mp added ▸ same ▸ among)
      · rw [grown, named, ← List.append_assoc, eraseDups_new (mt listed.mp known), styled.order]

theorem foldl_styled (styled : Styled fields table) (more : List (Key × Value)) :
    Styled (fields ++ more) (more.foldl overrideWith table) := by
  induction more generalizing fields table with
  | nil => rwa [List.append_nil]
  | cons field rest ih =>
    rw [List.append_cons]
    exact ih (overrideWith_styled styled field)

-- Fields that are about no class can as well be left out.
theorem foldl_filter (fields : List (Key × Value)) (table : List (Text × Text)) :
    (fields.filter fun field => (restyles? field).isSome).foldl overrideWith table =
      fields.foldl overrideWith table := by
  rw [List.foldl_filter]
  congr 1
  funext table field
  have overrides := overrideWith_sound table field
  generalize overrideWith table field = next at overrides ⊢
  cases overrides with
  | passed idle => simp [idle]
  | styled name style => rfl

theorem given_exists (settings : Option Settings) : ∃ fields, Given settings fields := by
  cases settings with
  | none => exact ⟨[], .unset⟩
  | some settings => exact ⟨_, .stands (Settings.fieldsAt_section (by decide) settings)⟩

theorem ofSettings_given (given : Given settings fields) :
    ofSettings settings = fields.foldl overrideWith base := by
  have named : Text.ofString "ui.theme.style" ≠ [] := by decide
  cases given with
  | unset => rfl
  | @stands settings fields there =>
    rw [ofSettings, Option.bind_some]
    cases there with
    | given found => rw [(Settings.find?_eq_some named).mpr found]
    | absent noMap =>
      split
      · rename_i fields found
        exact absurd ⟨fields, (Settings.find?_eq_some named).mp found⟩ noMap
      · rfl

theorem restyled_sublist (fields : List (Key × Value)) :
    ((fields.filterMap restyles?).map Key.text).Sublist (fields.map Prod.fst) := by
  induction fields with
  | nil => exact .slnil
  | cons field rest ih =>
    cases about : restyles? field with
    | none =>
      rw [List.filterMap_cons_none about]
      exact ih.cons _
    | some name =>
      obtain ⟨style, rfl⟩ := restyles?_eq_some.mp about
      exact ih.cons_cons _

theorem eraseDups_distinct {names : List Text} (distinct : names.Nodup) : names.eraseDups = names := by
  induction names with
  | nil => rfl
  | cons name rest ih =>
    obtain ⟨alone, distinct⟩ := List.nodup_cons.mp distinct
    have kept : rest.filter (fun later => !later == name) = rest :=
      List.filter_eq_self.mpr fun later among => by
        have apart : later ≠ name := fun same => alone (same ▸ among)
        simpa using apart
    rw [List.eraseDups_cons, kept, ih distinct]

-- In a map that has no key twice the new classes are in its order, and what it has for a class is
-- what it gives.
theorem order_distinct (distinct : (fields.map Prod.fst).Nodup) :
    (classes base ++ fields.filterMap restyles?).eraseDups =
      classes base ++ (fields.filterMap restyles?).removeAll (classes base) := by
  have once : (fields.filterMap restyles?).Nodup :=
    List.Pairwise.of_map Key.text (fun _ _ apart same => apart (congrArg _ same))
      ((restyled_sublist fields).nodup distinct)
  have fresh : ((fields.filterMap restyles?).removeAll (classes base)).Nodup := once.filter _
  rw [List.eraseDups_append, eraseDups_distinct base_styled.once, eraseDups_distinct fresh]

theorem gives_distinct (distinct : (fields.map Prod.fst).Nodup) :
    Gives fields name style ↔ (.text name, .text style) ∈ fields := by
  constructor
  · intro gives
    obtain ⟨before, after, rfl, -⟩ := gives
    exact List.mem_append_right _ List.mem_cons_self
  · intro among
    obtain ⟨before, after, rfl⟩ := List.append_of_mem among
    refine ⟨before, after, rfl, fun field later about => ?_⟩
    obtain ⟨style, rfl⟩ := restyles?_eq_some.mp about
    rw [List.map_append, List.map_cons, List.nodup_append] at distinct
    exact (List.nodup_cons.mp distinct.2.1).1 (List.mem_map.mpr ⟨_, later, rfl⟩)

theorem unsaid_iff : (∀ field ∈ fields, restyles? field ≠ some name) ↔
    ∀ given, (.text name, .text given) ∉ fields := by
  constructor
  · intro idle given among
    exact idle _ among rfl
  · intro unsaid field among about
    obtain ⟨given, rfl⟩ := restyles?_eq_some.mp about
    exact unsaid given among

-- The table of the styles has each class once: those it starts from in their order, and behind
-- them the new ones in the order of the settings. A class has the style that the settings have
-- for it, and its own where they have none. Fields that are no text under a text count for nothing.
theorem styles_overridden (settings : Option Settings) : (∃ fields, Given settings fields) ∧
    ∀ fields, Given settings fields → Styled fields (ofSettings settings) ∧
      ((fields.map Prod.fst).Nodup →
        classes (ofSettings settings) =
          classes base ++ (fields.filterMap restyles?).removeAll (classes base) ∧
        ∀ name style, (name, style) ∈ ofSettings settings ↔
          (.text name, .text style) ∈ fields ∨
            (∀ given, (.text name, .text given) ∉ fields) ∧ (name, style) ∈ base) ∧
      ∀ other, Given other (fields.filter fun field => (restyles? field).isSome) →
        ofSettings other = ofSettings settings := by
  refine ⟨given_exists settings, fun fields given => ?_⟩
  have styled : Styled fields (ofSettings settings) := by
    rw [ofSettings_given given]
    exact foldl_styled base_styled fields
  refine ⟨styled, ?_, ?_⟩
  · intro distinct
    refine ⟨styled.order.trans (order_distinct distinct), fun name style => ?_⟩
    rw [styled.styles, gives_distinct distinct, unsaid_iff]
  · intro other less
    rw [ofSettings_given less, ofSettings_given given, foldl_filter]

-- A new class, an old one with no style at all, and three fields that count for nothing: one under
-- a number, one with a number for an old class and one with a null for a new one.
theorem mixed_fields_override :
    let fields : List (Key × Value) := [(.text "new", .text "bold"), (.int 7, .text "red"),
      (.text "completion-menu.completion", .text []), (.text "completion-menu", .int 3),
      (.text "bare", .null), (.text "last", .text "italic")]
    let settings (fields : List (Key × Value)) : Settings :=
      ⟨.map [(.text "ui", .map [(.text "theme", .map [(.text "style", .map fields)])])]⟩
    let kept := fields.filter fun field => (restyles? field).isSome
    let table := ofSettings (some (settings fields))
    (fields.map Prod.fst).Nodup ∧ Given (some (settings fields)) fields ∧
      Given (some (settings kept)) kept ∧ kept.length = 3 ∧
      classes table = classes base ++ [Text.ofString "new", Text.ofString "last"] ∧
      (Text.ofString "completion-menu.completion", []) ∈ table ∧
      (Text.ofString "completion-menu", Text.ofString "bg:#111111 #d0d0d0") ∈ table ∧
      ofSettings (some (settings kept)) = table := by
  intro fields settings kept table
  have distinct : (fields.map Prod.fst).Nodup := by decide +kernel
  have given (fields : List (Key × Value)) : Given (some (settings fields)) fields := by
    refine .stands (.given ⟨["ui", "theme", "style"], Text.divided_iff.mpr (by decide), ?_⟩)
    refine Value.follow_eq_some.mp ?_
    simp [settings, Value.follow, Value.field?]
  obtain ⟨_, shown, alike⟩ := (styles_overridden (some (settings fields))).2 fields (given fields)
  obtain ⟨order, styles⟩ := shown distinct
  have bare : (Text.ofString "completion-menu.completion", []) ∈ table :=
    (styles _ _).mpr (.inl (by simp [fields]))
  have unsaid : ∀ style, (.text "completion-menu", .text style) ∉ fields := by
    intro style
    simp [fields, Text.ofString]
  exact ⟨distinct, given fields, given kept, rfl, order.trans (by decide +kernel), bare,
    (styles _ _).mpr (.inr ⟨unsaid, List.mem_cons_self⟩), alike _ (given kept)⟩

end LineShell.Palette
