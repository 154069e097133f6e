import LineShell.Proofs.Settings.Document.Lexing

namespace LineShell.Document

-- Values as a document on one line. A question mark stands in front of every key, which
-- may then be as long as it likes. There is no text for a float here.
mutual

def write : Value → Text
  | .null => writeKey .null
  | .bool b => writeKey (.bool b)
  | .int n => writeKey (.int n)
  | .float _ => []
  | .text t => writeKey (.text t)
  | .list items => .ofChar '[' :: writeItems items
  | .map fields => .ofChar '\x7b' :: writeFields fields

def writeItems : List Value → Text
  | [] => [.ofChar ']']
  | item :: rest => write item ++ .ofChar ',' :: writeItems rest

def writeFields : List (Key × Value) → Text
  | [] => [.ofChar '\x7d']
  | (key, value) :: rest =>
    .ofChar '?' :: .space :: (writeKey key ++
      .colon :: .space :: (write value ++ .ofChar ',' :: writeFields rest))

end

theorem write_value (key : Key) : write key.value = writeKey key := by cases key <;> rfl

theorem flow_value (key : Key) : flow key.value = [.scalar key.value] := by cases key <;> rfl

namespace Lexer

-- The later state has read the tokens, and stands in the same brackets as the one before.
structure Follows (lexer later : Lexer) (tokens : List Token) : Prop where
  tokens : later.tokens = tokens.reverse ++ lexer.tokens
  columns : later.columns = lexer.columns
  outside : later.outside = lexer.outside
  free : later.candidate.any Candidate.required = false

theorem Follows.loose {lexer later : Lexer} {tokens : List Token} (follows : Follows lexer later tokens)
    (loose : lexer.Loose) : later.Loose := by
  refine ⟨?_, follows.free⟩
  rw [inFlow, follows.outside, follows.columns]
  exact loose.blocks

-- The state behind a closing bracket.
def closed (lexer : Lexer) (tokens : List Token) (candidate : Option Candidate)
    (outer : List (Option Candidate)) : Lexer :=
  ⟨tokens.reverse ++ lexer.tokens, lexer.columns, outer, candidate, false⟩

end Lexer

open Lexer

-- Wherever the text of the value stands, the lexer reads the tokens of it there.
def Lexes (value : Value) : Prop :=
  ∀ lexer : Lexer, ∀ body after : Remainder, lexer.Loose → body.map Spot.point = write value →
    Stops lexer.inFlow after →
      ∃ later, Follows lexer later (flow value) ∧ Reaches lexer (body ++ after) later after

theorem stops_comma {spot : Spot} {rest : Remainder} (mark : spot.point = .ofChar ',') :
    Stops true (spot :: rest) := by
  have flows : flowMarks.contains (.ofChar ',') = true := by decide
  refine ⟨by simp only [endsWord, mark, flows, Bool.true_and, Bool.true_or, Bool.or_true], ?_⟩
  rintro other ⟨⟩
  rw [mark]
  decide

theorem stops_colon {inFlow : Bool} {colon space : Spot} {rest : Remainder} (mark : colon.point = .colon)
    (gap : space.point = .space) : Stops inFlow (colon :: space :: rest) := by
  have gaps : isGap .space = true := by decide
  refine ⟨by simp [endsWord, mark, endsMark, gap, gaps], ?_⟩
  rintro spot ⟨⟩
  rw [mark]
  decide

theorem lexes_key (key : Key) : Lexes key.value := by
  intro lexer body after loose written stops
  rw [write_value] at written
  obtain ⟨spot, reaches⟩ := reaches_key loose key written stops
  refine ⟨_, ⟨?_, ?_, ?_, ?_⟩, reaches⟩
  · simp [emit, flow_value]
  · exact proposed_columns lexer spot
  · exact proposed_outside lexer spot
  · exact proposed_free loose spot

-- A part in brackets, together with the comma behind it.
theorem lexes_part {value : Value} {lexer : Lexer} {body : Remainder} {more : Text}
    (after : Remainder) (lexes : Lexes value) (loose : lexer.Loose) (inside : lexer.inFlow = true)
    (written : body.map Spot.point = write value ++ .ofChar ',' :: more) :
    ∃ later rest, Follows lexer later (flow value ++ [.comma]) ∧ rest.map Spot.point = more ∧
      Reaches lexer (body ++ after) later (rest ++ after) := by
  obtain ⟨part, tail, rfl, first, written⟩ := List.map_eq_append_iff.mp written
  obtain ⟨comma, rest, rfl, mark, written⟩ := List.map_eq_cons_iff.mp written
  rw [List.append_assoc, List.cons_append]
  obtain ⟨next, follows, reaches⟩ :=
    lexes lexer part (comma :: (rest ++ after)) loose first (inside ▸ stops_comma mark)
  refine ⟨_, rest, ⟨?_, ?_, ?_, ?_⟩, written,
    reaches.trans (reaches_comma (follows.loose loose) (rest ++ after) mark)⟩
  · simp [emit, follows.tokens]
  · exact follows.columns
  · exact follows.outside
  · rfl

-- The name of a field, together with the marks around it.
theorem lexes_name {key : Key} {lexer : Lexer} {body : Remainder} {more : Text}
    (after : Remainder) (loose : lexer.Loose) (inside : lexer.inFlow = true)
    (written : body.map Spot.point =
      .ofChar '?' :: .space :: (writeKey key ++ .colon :: .space :: more)) :
    ∃ later rest, Follows lexer later [.key, .scalar key.value, .value] ∧ rest.map Spot.point = more ∧
      Reaches lexer (body ++ after) later (rest ++ after) := by
  obtain ⟨ask, tail, rfl, asks, written⟩ := List.map_eq_cons_iff.mp written
  obtain ⟨gap, tail, rfl, first, written⟩ := List.map_eq_cons_iff.mp written
  obtain ⟨name, tail, rfl, named, written⟩ := List.map_eq_append_iff.mp written
  obtain ⟨colon, tail, rfl, mark, written⟩ := List.map_eq_cons_iff.mp written
  obtain ⟨space, rest, rfl, second, written⟩ := List.map_eq_cons_iff.mp written
  simp only [List.cons_append, List.append_assoc]
  let asked : Lexer := { lexer.emit .key with candidate := none, mayKey := false }
  have asking : asked.Loose := ⟨.inl inside, rfl⟩
  have apart : Stops asked.inFlow (colon :: space :: (rest ++ after)) := stops_colon mark second
  obtain ⟨spot, reads⟩ := reaches_key asking key named apart
  let told : Lexer := { asked.emit (.scalar key.value) with mayKey := false }
  have telling : told.Loose := ⟨.inl inside, rfl⟩
  have sees : Reaches asked (name ++ colon :: space :: (rest ++ after)) told
      (colon :: space :: (rest ++ after)) := reads
  refine ⟨_, rest, ⟨?_, ?_, ?_, ?_⟩, written,
    (reaches_ask loose _ inside asks).trans ((Reaches.space first).trans (sees.trans
      ((reaches_colon telling _ inside rfl mark).trans (Reaches.space second))))⟩
  all_goals rfl

section
variable {lexer : Lexer} {candidate : Option Candidate} {outer : List (Option Candidate)}
  {body after : Remainder} (loose : lexer.Loose) (around : lexer.outside = candidate :: outer)
include loose around

theorem lexes_items {items : List Value} (each : ∀ item ∈ items, Lexes item)
    (written : body.map Spot.point = writeItems items) :
    Reaches lexer (body ++ after) (lexer.closed (flowItems items) candidate outer) after := by
  have inside : lexer.inFlow = true := by simp [inFlow, around]
  induction items generalizing lexer body with
  | nil =>
    obtain ⟨spot, rfl, mark⟩ := List.map_eq_singleton_iff.mp written
    exact reaches_close loose after around (.inl ⟨mark, rfl⟩)
  | cons item items ih =>
    obtain ⟨first, others⟩ := List.forall_mem_cons.mp each
    obtain ⟨later, rest, follows, written, reaches⟩ :=
      lexes_part after first loose inside written
    have around : later.outside = candidate :: outer := follows.outside.trans around
    have ends := ih (follows.loose loose) around others written (by simp [inFlow, around])
    have same : later.closed (flowItems items) candidate outer =
        lexer.closed (flowItems (item :: items)) candidate outer := by
      simp [closed, flowItems, follows.tokens, follows.columns]
    exact reaches.trans (same ▸ ends)

theorem lexes_fields {fields : List (Key × Value)} (each : ∀ field ∈ fields, Lexes field.2)
    (written : body.map Spot.point = writeFields fields) :
    Reaches lexer (body ++ after) (lexer.closed (flowFields fields) candidate outer) after := by
  have inside : lexer.inFlow = true := by simp [inFlow, around]
  induction fields generalizing lexer body with
  | nil =>
    obtain ⟨spot, rfl, mark⟩ := List.map_eq_singleton_iff.mp written
    exact reaches_close loose after around (.inr ⟨mark, rfl⟩)
  | cons field fields ih =>
    obtain ⟨key, value⟩ := field
    obtain ⟨first, others⟩ := List.forall_mem_cons.mp each
    obtain ⟨named, rest, names, written, reads⟩ := lexes_name after loose inside written
    have within : named.outside = candidate :: outer := names.outside.trans around
    obtain ⟨later, rest, follows, written, reaches⟩ :=
      lexes_part after first (names.loose loose) (by simp [inFlow, within]) written
    have around : later.outside = candidate :: outer := follows.outside.trans within
    have ends := ih (follows.loose (names.loose loose)) around others written (by simp [inFlow, around])
    have same : later.closed (flowFields fields) candidate outer =
        lexer.closed (flowFields ((key, value) :: fields)) candidate outer := by
      simp [closed, flowFields, follows.tokens, follows.columns, names.tokens, names.columns]
    exact reads.trans (reaches.trans (same ▸ ends))

end

theorem lexes_bracketed {value : Value} {token : Token} {mark : CodePoint} {tokens : List Token}
    {inner : Text} (kind : mark = .ofChar '[' ∧ token = .openList ∨ mark = .ofChar '\x7b' ∧ token = .openMap)
    (text : write value = mark :: inner) (parts : flow value = token :: tokens)
    (inside : ∀ {lexer : Lexer} {candidate : Option Candidate} {outer : List (Option Candidate)}
      {body after : Remainder}, lexer.Loose → lexer.outside = candidate :: outer →
        body.map Spot.point = inner →
          Reaches lexer (body ++ after) (lexer.closed tokens candidate outer) after) : Lexes value := by
  intro lexer body after loose written stops
  rw [text] at written
  obtain ⟨spot, rest, rfl, rfl, behind⟩ := List.map_eq_cons_iff.mp written
  let opened : Lexer := { (lexer.proposed spot).emit token with
    outside := (lexer.proposed spot).candidate :: (lexer.proposed spot).outside, candidate := none,
    mayKey := true }
  have within : opened.Loose := ⟨.inl rfl, rfl⟩
  refine ⟨_, ⟨?_, ?_, ?_, ?_⟩, (reaches_open loose (rest ++ after) kind).trans (inside within rfl behind)⟩
  · simp [closed, emit, parts]
  · exact proposed_columns lexer spot
  · exact proposed_outside lexer spot
  · exact proposed_free loose spot

theorem lexes_plain {value : Value} (plain : Plain value) : Lexes value := by
  induction plain with
  | null => exact lexes_key .null
  | bool b => exact lexes_key (.bool b)
  | int n => exact lexes_key (.int n)
  | text t => exact lexes_key (.text t)
  | list _ ih =>
    exact lexes_bracketed (.inl ⟨rfl, rfl⟩) rfl rfl fun loose around => lexes_items loose around ih
  | map _ _ ih =>
    exact lexes_bracketed (.inr ⟨rfl, rfl⟩) rfl rfl fun loose around => lexes_fields loose around ih

-- What is written is plain text on one line.
def OneLine (text : Text) : Prop := ∀ c ∈ text, 0x20 ≤ c.val ∧ c.val ≤ 0x7E

theorem OneLine.encodable {text : Text} (one : OneLine text) : text.Encodable := by
  intro c among
  have low := (one c among).2
  simp only [CodePoint.isSurrogate, Bool.and_eq_false_iff, decide_eq_false_iff_not]
  omega

theorem oneLine_append {one other : Text} (left : OneLine one) (right : OneLine other) :
    OneLine (one ++ other) := by
  intro c among
  rcases List.mem_append.mp among with among | among
  · exact left c among
  · exact right c among

theorem oneLine_cons {c : CodePoint} {text : Text} (low : 0x20 ≤ c.val ∧ c.val ≤ 0x7E)
    (rest : OneLine text) : OneLine (c :: text) :=
  List.forall_mem_cons.mpr ⟨low, rest⟩

theorem oneLine_writeKey (key : Key) : OneLine (writeKey key) := by
  rcases writeKey_cases key with ⟨t, rfl, quotes⟩ | ⟨bare, -⟩
  · rw [quotes, quoted]
    refine oneLine_cons (by decide) (oneLine_append ?_ (oneLine_cons (by decide) (by simp [OneLine])))
    intro c among
    obtain ⟨point, -, among⟩ := List.mem_flatMap.mp among
    obtain ⟨low, high⟩ := spelled_visible among
    omega
  · intro c among
    obtain ⟨low, high, -⟩ := inside_word (bare.each among)
    omega

theorem oneLine_items {items : List Value} (each : ∀ item ∈ items, OneLine (write item)) :
    OneLine (writeItems items) := by
  induction items with
  | nil => exact oneLine_cons (by decide) (by simp [OneLine])
  | cons item items ih =>
    obtain ⟨first, others⟩ := List.forall_mem_cons.mp each
    exact oneLine_append first (oneLine_cons (by decide) (ih others))

theorem oneLine_fields {fields : List (Key × Value)} (each : ∀ field ∈ fields, OneLine (write field.2)) :
    OneLine (writeFields fields) := by
  induction fields with
  | nil => exact oneLine_cons (by decide) (by simp [OneLine])
  | cons field fields ih =>
    obtain ⟨first, others⟩ := List.forall_mem_cons.mp each
    exact oneLine_cons (by decide) (oneLine_cons (by decide) (oneLine_append (oneLine_writeKey field.1)
      (oneLine_cons (by decide) (oneLine_cons (by decide)
        (oneLine_append first (oneLine_cons (by decide) (ih others)))))))

theorem oneLine_write {value : Value} (plain : Plain value) : OneLine (write value) := by
  induction plain with
  | null => exact oneLine_writeKey .null
  | bool b => exact oneLine_writeKey (.bool b)
  | int n => exact oneLine_writeKey (.int n)
  | text t => exact oneLine_writeKey (.text t)
  | list _ ih => exact oneLine_cons (by decide) (oneLine_items ih)
  | map _ _ ih => exact oneLine_cons (by decide) (oneLine_fields ih)

theorem located_points (text : Text) (index line column : Nat) :
    (located index line column text).map Spot.point = text := by
  induction text generalizing index line column with
  | nil => rfl
  | cons c rest ih =>
    rw [located, List.map_cons]
    split_ifs <;> rw [ih]

theorem plainBreaks_cons {c : CodePoint} {rest : Text} (noReturn : c ≠ .carriageReturn) :
    plainBreaks (c :: rest) = c :: plainBreaks rest := by
  cases rest <;> simp [plainBreaks, noReturn]

theorem plainBreaks_oneLine {text : Text} (one : OneLine text) : plainBreaks text = text := by
  induction text with
  | nil => rfl
  | cons c rest ih =>
    obtain ⟨⟨low, -⟩, others⟩ := List.forall_mem_cons.mp one
    have noReturn : c ≠ .carriageReturn := by
      rintro rfl
      exact absurd low (by decide)
    rw [plainBreaks_cons noReturn, ih others]

theorem ofText?_oneLine {text : Text} (one : OneLine text) :
    ∃ rest, Remainder.ofText? text = some rest ∧ rest.map Spot.point = text := by
  have allowed : text.all isAllowed = true := by
    refine List.all_eq_true.mpr fun c among => ?_
    simp [isAllowed, one c among]
  have same : dropOrderMark text = text := by
    cases text with
    | nil => rfl
    | cons c rest =>
      have noMark : c ≠ .byteOrderMark := by
        rintro rfl
        exact absurd (one _ List.mem_cons_self).2 (by decide)
      exact if_neg noMark
  rw [Remainder.ofText?, if_pos allowed, plainBreaks_oneLine one, same]
  exact ⟨_, rfl, located_points text 0 0 0⟩

-- A value that is written comes back, whatever it is.
theorem parse?_write {value : Value} (plain : Plain value) : parse? (write value) = some value := by
  obtain ⟨rest, placed, points⟩ := ofText?_oneLine (oneLine_write plain)
  have start : Lexer.initial.Loose := ⟨.inr rfl, rfl⟩
  obtain ⟨later, follows, reaches⟩ := lexes_plain plain .initial rest [] start points (stops_nil _)
  rw [List.append_nil] at reaches
  obtain ⟨less, enough, same⟩ := reaches (rest.length + 1) (Nat.lt_succ_self _)
  obtain ⟨less, rfl⟩ : ∃ fuel, less = fuel + 1 := ⟨less - 1, by simp at enough; omega⟩
  have loose := follows.loose start
  have ends : later.tokens? (less + 1) [] = some (flow value) := by
    simp [tokens?, skipBlank, endBlocks_loose loose, drop?_loose loose, follows.tokens, initial]
  rw [parse?, placed, Option.bind_some, Token.read?, same, ends]
  exact ofTokens?_flow plain

end LineShell.Document
