import LineShell.Text.Inspect

namespace LineShell

-- The name of a field. Floats, dates, bytes and tuples as names are left out.
inductive Key where
  | null
  | bool (b : Bool)
  | int (n : Int)
  | text (t : Text)
deriving DecidableEq, Inhabited

-- A value of the settings. A float is known by its shortest text only; the fields of
-- a map stand in the order in which they were first given. Dates, bytes, sets and tuples,
-- which a mapping that comes from no document could hold too, are left out.
inductive Value where
  | null
  | bool (b : Bool)
  | int (n : Int)
  | float (shown : Text)
  | text (t : Text)
  | list (items : List Value)
  | map (fields : List (Key × Value))
deriving Inhabited

namespace Key

-- Truth values are the numbers one and zero where keys are compared.
def number? : Key → Option Int
  | .bool b => some (if b then 1 else 0)
  | .int n => some n
  | _ => none

def same (a b : Key) : Bool :=
  match a.number?, b.number? with
  | some m, some n => m = n
  | _, _ => a = b

def inspect : Key → Text
  | .null => "None"
  | .bool b => if b then "True" else "False"
  | .int n => Text.ofInt n
  | .text t => t.inspect

def display : Key → Text
  | .text t => t
  | key => key.inspect

end Key

namespace Value

-- A field given again keeps its place and its first key, and takes the new value.
def setField (key : Key) (value : Value) : List (Key × Value) → List (Key × Value)
  | [] => [(key, value)]
  | (k, v) :: rest =>
    if k.same key then (k, value) :: rest else (k, v) :: setField key value rest

def ofFields (fields : List (Key × Value)) : Value :=
  .map (fields.foldl (fun built (key, value) => setField key value built) [])

def field? (name : Text) : List (Key × Value) → Option Value
  | [] => none
  | (k, v) :: rest => if k = .text name then some v else field? name rest

-- The value in the form in which it stands inside another one.
mutual

def inspect : Value → Text
  | .null => "None"
  | .bool b => if b then "True" else "False"
  | .int n => Text.ofInt n
  | .float shown => shown
  | .text t => t.inspect
  | .list items => "[" ++ Text.joined ", " (inspectItems items) ++ Text.ofString "]"
  | .map fields => "\x7b" ++ Text.joined ", " (inspectFields fields) ++ Text.ofString "\x7d"

def inspectItems : List Value → List Text
  | [] => []
  | item :: rest => item.inspect :: inspectItems rest

def inspectFields : List (Key × Value) → List Text
  | [] => []
  | (key, value) :: rest =>
    (key.inspect ++ Text.ofString ": " ++ value.inspect) :: inspectFields rest

end

def display : Value → Text
  | .text t => t
  | value => value.inspect

-- Values that count as not given where a choice falls back to its default.
def isBlank : Value → Bool
  | .null => true
  | .bool b => !b
  | .int n => n = 0
  | .float shown => shown = Text.ofString "0.0" || shown = Text.ofString "-0.0"
  | .text t => t.isEmpty
  | .list items => items.isEmpty
  | .map fields => fields.isEmpty

def typeName : Value → Text
  | .null => "NoneType"
  | .bool _ => "bool"
  | .int _ => "int"
  | .float _ => "float"
  | .text _ => "str"
  | .list _ => "list"
  | .map _ => "dict"

def follow : List Text → Value → Option Value
  | [], value => some value
  | name :: rest, .map fields =>
    match field? name fields with
    | none => none
    | some value => follow rest value
  | _ :: _, _ => none

end Value

end LineShell
