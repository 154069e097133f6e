import LineShell.Settings.Document

namespace LineShell

namespace Value

-- A field that is there already keeps its place, and any other one comes last.
theorem setField_cases (key : Key) (value : Value) (fields : List (Key × Value)) :
    (∃ before given old after, fields = before ++ (given, old) :: after ∧ given.same key = true ∧
      setField key value fields = before ++ (given, value) :: after) ∨
    ((∀ given ∈ fields.map Prod.fst, given.same key = false) ∧
      setField key value fields = fields ++ [(key, value)]) := by
  induction fields with
  | nil => exact .inr ⟨by simp, rfl⟩
  | cons field rest ih =>
    obtain ⟨given, old⟩ := field
    cases same : given.same key with
    | true => exact .inl ⟨[], given, old, rest, rfl, same, by simp [setField, same]⟩
    | false =>
      rcases ih with ⟨before, other, held, after, split, found, taken⟩ | ⟨fresh, last⟩
      · exact .inl ⟨(given, old) :: before, other, held, after, by simp [split], found,
          by simp [setField, same, taken]⟩
      · exact .inr ⟨by simpa [same] using fresh, by simp [setField, same, last]⟩

-- No key stands for another one.
def Apart (fields : List (Key × Value)) : Prop :=
  (fields.map Prod.fst).Pairwise fun one other => one.same other = false

theorem apart_setField {key : Key} {value : Value} {fields : List (Key × Value)} (apart : Apart fields) :
    Apart (setField key value fields) := by
  rcases setField_cases key value fields with ⟨before, given, old, after, rfl, -, taken⟩ | ⟨fresh, last⟩
  · rw [taken]
    simpa [Apart] using apart
  · rw [last, Apart, List.map_append]
    exact List.pairwise_append.mpr ⟨apart, List.pairwise_singleton _ _, by simpa using fresh⟩

theorem ofFields_apart {fields : List (Key × Value)} (apart : Apart fields) :
    ofFields fields = .map fields := by
  suffices ∀ built, Apart (built ++ fields) →
      fields.foldl (fun built field => setField field.1 field.2 built) built = built ++ fields by
    exact congrArg Value.map (this [] apart)
  clear apart
  intro built apart
  induction fields generalizing built with
  | nil => exact (List.append_nil built).symm
  | cons field rest ih =>
    obtain ⟨key, value⟩ := field
    have shifted : built ++ (key, value) :: rest = (built ++ [(key, value)]) ++ rest := by
      rw [List.append_assoc]
      rfl
    have last : setField key value built = built ++ [(key, value)] := by
      rcases setField_cases key value built with ⟨before, given, old, after, rfl, same, -⟩ | ⟨-, last⟩
      · rw [Apart, List.map_append] at apart
        have other := (List.pairwise_append.mp apart).2.2 given (by simp) key (by simp)
        exact absurd (other.symm.trans same) Bool.false_ne_true
      · exact last
    rw [List.foldl_cons, shifted]
    dsimp only
    rw [last]
    exact ih _ (shifted ▸ apart)

end Value

def Key.value : Key → Value
  | .null => .null
  | .bool b => .bool b
  | .int n => .int n
  | .text t => .text t

namespace Document

-- What a document can hold: no floats, and no key of a map twice.
inductive Plain : Value → Prop where
  | null : Plain .null
  | bool (b : Bool) : Plain (.bool b)
  | int (n : Int) : Plain (.int n)
  | text (t : Text) : Plain (.text t)
  | list {items : List Value} (each : ∀ item ∈ items, Plain item) : Plain (.list items)
  | map {fields : List (Key × Value)} (each : ∀ field ∈ fields, Plain field.2)
      (apart : Value.Apart fields) : Plain (.map fields)

-- The tokens of a value in brackets, with a comma behind each of its parts.
mutual

def flow : Value → List Token
  | .list items => .openList :: flowItems items
  | .map fields => .openMap :: flowFields fields
  | value => [.scalar value]

def flowItems : List Value → List Token
  | [] => [.closeList]
  | item :: rest => flow item ++ .comma :: flowItems rest

def flowFields : List (Key × Value) → List Token
  | [] => [.closeMap]
  | (key, value) :: rest =>
    .key :: .scalar key.value :: .value :: (flow value ++ .comma :: flowFields rest)

end

-- Whatever fields are given, those that remain are apart.
theorem Plain.ofFields {fields : List (Key × Value)} (each : ∀ field ∈ fields, Plain field.2) :
    Plain (.ofFields fields) := by
  suffices ∀ built : List (Key × Value), (∀ field ∈ built, Plain field.2) → Value.Apart built →
      Plain (.map (fields.foldl (fun built field => Value.setField field.1 field.2 built) built)) from
    this [] (by simp) List.Pairwise.nil
  intro built kept apart
  induction fields generalizing built with
  | nil => exact .map kept apart
  | cons field rest ih =>
    obtain ⟨key, value⟩ := field
    obtain ⟨first, later⟩ := List.forall_mem_cons.mp each
    refine ih later (Value.setField key value built) ?_ (Value.apart_setField apart)
    intro field among
    rcases Value.setField_cases key value built with ⟨before, given, old, after, rfl, -, taken⟩ | ⟨-, last⟩
    · rw [taken] at among
      rcases List.mem_append.mp among with among | among
      · exact kept field (List.mem_append_left _ among)
      · rcases List.mem_cons.mp among with rfl | among
        · exact first
        · exact kept field (by simp [among])
    · rw [last] at among
      rcases List.mem_append.mp among with among | among
      · exact kept field among
      · obtain rfl := List.mem_singleton.mp among
        exact first

theorem key?_value (key : Key) : key? key.value = some key := by cases key <;> rfl

theorem flow_cases (value : Value) : flow value = [.scalar value] ∨
    (∃ items, value = .list items ∧ flow value = .openList :: flowItems items) ∨
      ∃ fields, value = .map fields ∧ flow value = .openMap :: flowFields fields := by
  cases value with
  | list items => exact .inr (.inl ⟨items, rfl, rfl⟩)
  | map fields => exact .inr (.inr ⟨fields, rfl, rfl⟩)
  | _ => exact .inl rfl

section
variable (fuel : Nat) (value : Value) (rest : List Token)

-- In brackets the tokens of a value are a value wherever one may stand.
theorem flowItem?_flow : flowItem? (fuel + 1) (flow value ++ rest) = value? fuel (flow value ++ rest) := by
  rcases flow_cases value with same | ⟨_, _, same⟩ | ⟨_, _, same⟩ <;> rw [same] <;> rfl

theorem fieldPart?_flow : fieldPart? (fuel + 2) (flow value ++ rest) = value? fuel (flow value ++ rest) := by
  rcases flow_cases value with same | ⟨_, _, same⟩ | ⟨_, _, same⟩ <;> rw [same] <;> rfl

theorem flowItems?_cons {after last : List Token} {items : List Value}
    (first : value? fuel (flow value ++ rest) = some (value, .comma :: after))
    (later : flowItems? (fuel + 1) after = some (items, last)) :
    flowItems? (fuel + 2) (flow value ++ rest) = some (value :: items, last) := by
  rw [← flowItem?_flow] at first
  rcases flow_cases value with same | ⟨_, _, same⟩ | ⟨_, _, same⟩ <;> rw [same] at first ⊢ <;>
    simp only [List.cons_append, List.nil_append, flowItems?] at first ⊢ <;> rw [first] <;> simp [later]

theorem flowFields?_cons {key : Key} {after last : List Token} {fields : List (Key × Value)}
    (first : value? (fuel + 1) (flow value ++ rest) = some (value, .comma :: after))
    (later : flowFields? (fuel + 5) after = some (fields, last)) :
    flowFields? (fuel + 6) (.key :: .scalar key.value :: .value :: (flow value ++ rest)) =
      some ((key, value) :: fields, last) := by
  have name : fieldPart? (fuel + 3) (.scalar key.value :: .value :: (flow value ++ rest)) =
      some (key.value, .value :: (flow value ++ rest)) := rfl
  rw [← fieldPart?_flow] at first
  have field : field? (fuel + 4) (.scalar key.value :: .value :: (flow value ++ rest)) =
      some ((key, value), .comma :: after) := by
    rw [field?, name]
    dsimp only
    rw [key?_value]
    dsimp only
    rw [first]
    rfl
  have part : flowField? (fuel + 5) (.key :: .scalar key.value :: .value :: (flow value ++ rest)) =
      some ((key, value), .comma :: after) := field
  rw [flowFields?, part]
  · dsimp only
    rw [later]
    rfl
  · simp

end

-- The reader has fuel enough for a value when it has four times the tokens of it.
def Reads (value : Value) : Prop :=
  ∀ fuel rest, 4 * (flow value).length ≤ fuel → value? fuel (flow value ++ rest) = some (value, rest)

theorem flowItems?_flow {items : List Value} (each : ∀ item ∈ items, Reads item) (fuel : Nat)
    (rest : List Token) (enough : 4 * (flowItems items).length ≤ fuel) :
    flowItems? fuel (flowItems items ++ rest) = some (items, rest) := by
  induction items generalizing fuel with
  | nil =>
    obtain _ | fuel := fuel
    · simp [flowItems] at enough
    · rfl
  | cons item items ih =>
    obtain ⟨first, later⟩ := List.forall_mem_cons.mp each
    simp only [flowItems, List.length_append, List.length_cons] at enough
    obtain ⟨fuel, rfl⟩ : ∃ less, fuel = less + 2 := ⟨fuel - 2, by omega⟩
    rw [flowItems, List.append_assoc]
    exact flowItems?_cons fuel item _ (first _ _ (by omega)) (ih later _ (by omega))

theorem flowFields?_flow {fields : List (Key × Value)} (each : ∀ field ∈ fields, Reads field.2)
    (fuel : Nat) (rest : List Token) (enough : 4 * (flowFields fields).length ≤ fuel) :
    flowFields? fuel (flowFields fields ++ rest) = some (fields, rest) := by
  induction fields generalizing fuel with
  | nil =>
    obtain _ | fuel := fuel
    · simp [flowFields] at enough
    · rfl
  | cons field fields ih =>
    obtain ⟨key, value⟩ := field
    obtain ⟨first, later⟩ := List.forall_mem_cons.mp each
    have reads : Reads value := first
    simp only [flowFields, List.length_append, List.length_cons] at enough
    obtain ⟨fuel, rfl⟩ : ∃ less, fuel = less + 6 := ⟨fuel - 6, by omega⟩
    simp only [flowFields, List.cons_append, List.append_assoc]
    exact flowFields?_cons fuel value _ (reads _ _ (by omega)) (ih later _ (by omega))

theorem reads_scalar {value : Value} (scalar : flow value = [.scalar value]) : Reads value := by
  intro fuel rest enough
  rw [scalar] at enough ⊢
  obtain _ | fuel := fuel
  · simp at enough
  · rfl

theorem reads_plain {value : Value} (plain : Plain value) : Reads value := by
  induction plain with
  | null => exact reads_scalar rfl
  | bool b => exact reads_scalar rfl
  | int n => exact reads_scalar rfl
  | text t => exact reads_scalar rfl
  | list _ ih =>
    intro fuel rest enough
    simp only [flow, List.length_cons] at enough
    obtain ⟨fuel, rfl⟩ : ∃ less, fuel = less + 1 := ⟨fuel - 1, by omega⟩
    simp only [flow, List.cons_append, value?]
    rw [flowItems?_flow ih fuel rest (by omega)]
    rfl
  | map _ apart ih =>
    intro fuel rest enough
    simp only [flow, List.length_cons] at enough
    obtain ⟨fuel, rfl⟩ : ∃ less, fuel = less + 1 := ⟨fuel - 1, by omega⟩
    simp only [flow, List.cons_append, value?]
    rw [flowFields?_flow ih fuel rest (by omega), Option.map_some, Value.ofFields_apart apart]

-- So a document whose tokens are those of a value is read as that value.
theorem ofTokens?_flow {value : Value} (plain : Plain value) : ofTokens? (flow value) = some value := by
  have read := reads_plain plain (4 * (flow value).length + 4) [] (by omega)
  rw [List.append_nil] at read
  unfold ofTokens?
  rcases flow_cases value with same | ⟨_, _, same⟩ | ⟨_, _, same⟩ <;> rw [same] at read ⊢ <;>
    dsimp only <;> rw [read] <;> rfl

end Document

end LineShell
