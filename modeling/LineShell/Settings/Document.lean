import LineShell.Settings.Document.Token

namespace LineShell.Document

-- Settings documents: maps and lists laid out by columns or written in brackets, with
-- scalars at the leaves.

def key? : Value → Option Key
  | .null => some .null
  | .bool b => some (.bool b)
  | .int n => some (.int n)
  | .text t => some (.text t)
  | _ => none

def Token.beginsValue : Token → Bool
  | .scalar _ | .openList | .openMap | .listBlock | .mapBlock => true
  | _ => false

mutual

-- One step in four takes a token, so their number bounds the steps.
def value? : Nat → List Token → Option (Value × List Token)
  | 0, _ => none
  | _ + 1, .scalar value :: rest => some (value, rest)
  | fuel + 1, .openList :: rest =>
    (flowItems? fuel rest).map fun (items, after) => (.list items, after)
  | fuel + 1, .openMap :: rest =>
    (flowFields? fuel rest).map fun (fields, after) => (.ofFields fields, after)
  | fuel + 1, .listBlock :: rest =>
    match blockItems? fuel rest with
    | some (items, .blockEnd :: after) => some (.list items, after)
    | _ => none
  | fuel + 1, .mapBlock :: rest =>
    match blockFields? fuel rest with
    | some (fields, .blockEnd :: after) => some (.ofFields fields, after)
    | _ => none
  | _ + 1, _ => none

def valueOrNull? : Nat → List Token → Option (Value × List Token)
  | 0, _ => none
  | fuel + 1, tokens =>
    if tokens.head?.any Token.beginsValue then value? fuel tokens else some (.null, tokens)

-- The key of a field or the value of one. A list need not be indented there.
def fieldPart? : Nat → List Token → Option (Value × List Token)
  | 0, _ => none
  | fuel + 1, .item :: rest =>
    (blockItems? fuel (.item :: rest)).map fun (items, after) => (.list items, after)
  | fuel + 1, tokens => valueOrNull? fuel tokens

def field? : Nat → List Token → Option ((Key × Value) × List Token)
  | 0, _ => none
  | fuel + 1, tokens =>
    match fieldPart? fuel tokens with
    | none => none
    | some (name, after) =>
      match key? name, after with
      | none, _ => none
      | some key, .value :: after =>
        (fieldPart? fuel after).map fun (value, after) => ((key, value), after)
      | some key, _ => some ((key, .null), after)

def blockItems? : Nat → List Token → Option (List Value × List Token)
  | 0, _ => none
  | fuel + 1, .item :: rest =>
    match valueOrNull? fuel rest with
    | none => none
    | some (item, after) =>
      (blockItems? fuel after).map fun (items, after) => (item :: items, after)
  | _ + 1, tokens => some ([], tokens)

def blockFields? : Nat → List Token → Option (List (Key × Value) × List Token)
  | 0, _ => none
  | fuel + 1, .key :: rest =>
    match field? fuel rest with
    | none => none
    | some (field, after) =>
      (blockFields? fuel after).map fun (fields, after) => (field :: fields, after)
  | _ + 1, tokens => some ([], tokens)

-- A field inside the brackets of a list is a map of its own.
def flowItem? : Nat → List Token → Option (Value × List Token)
  | 0, _ => none
  | fuel + 1, .key :: rest =>
    (field? fuel rest).map fun (field, after) => (.ofFields [field], after)
  | fuel + 1, tokens => value? fuel tokens

def flowItems? : Nat → List Token → Option (List Value × List Token)
  | 0, _ => none
  | _ + 1, .closeList :: rest => some ([], rest)
  | fuel + 1, tokens =>
    match flowItem? fuel tokens with
    | some (item, .comma :: after) =>
      (flowItems? fuel after).map fun (items, after) => (item :: items, after)
    | some (item, .closeList :: after) => some ([item], after)
    | _ => none

-- A value inside the brackets of a map is a key without a value.
def flowField? : Nat → List Token → Option ((Key × Value) × List Token)
  | 0, _ => none
  | fuel + 1, .key :: rest => field? fuel rest
  | fuel + 1, tokens =>
    match value? fuel tokens with
    | none => none
    | some (name, after) => (key? name).map fun key => ((key, .null), after)

def flowFields? : Nat → List Token → Option (List (Key × Value) × List Token)
  | 0, _ => none
  | _ + 1, .closeMap :: rest => some ([], rest)
  | fuel + 1, tokens =>
    match flowField? fuel tokens with
    | some (field, .comma :: after) =>
      (flowFields? fuel after).map fun (fields, after) => (field :: fields, after)
    | some (field, .closeMap :: after) => some ([field], after)
    | _ => none

end

def Token.isDocumentEnd : Token → Bool
  | .documentEnd => true
  | _ => false

-- The value of a whole document, null where there is nothing. Behind its end there is no
-- second one.
def ofTokens? (tokens : List Token) : Option Value :=
  let fuel := 4 * tokens.length + 4
  let read :=
    match tokens with
    | [] => some (Value.null, [])
    | .documentStart :: rest => valueOrNull? fuel rest
    | _ => value? fuel tokens
  match read with
  | none => none
  | some (value, after) => if after.all Token.isDocumentEnd then some value else none

def parse? (text : Text) : Option Value :=
  ((Remainder.ofText? text).bind Token.read?).bind ofTokens?

end LineShell.Document
