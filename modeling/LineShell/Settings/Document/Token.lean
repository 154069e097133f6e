import LineShell.Settings.Document.Scalar
import LineShell.Settings.Document.Word

namespace LineShell.Document

-- Documents as tokens. Blocks, which a document shows by columns alone, have tokens of
-- their own where they start and end.
inductive Token where
  | documentStart
  | documentEnd
  | listBlock
  | mapBlock
  | blockEnd
  | openList
  | closeList
  | openMap
  | closeMap
  | comma
  | item
  | key
  | value
  | scalar (value : Value)

-- A place where a key may have begun, which only a colon later on decides.
structure Candidate where
  -- How many tokens stand in front of it.
  place : Nat
  -- Whether the block that it stands in takes nothing but a key there.
  required : Bool
  spot : Spot

-- A key and its colon stand on one line and not far from each other.
def Candidate.reaches (candidate : Candidate) (colon : Spot) : Bool :=
  candidate.spot.line = colon.line && colon.index ≤ candidate.spot.index + 1024

structure Lexer where
  -- The tokens read so far, the last one first.
  tokens : List Token
  -- The columns of the blocks around, the innermost first.
  columns : List Nat
  -- The candidates outside the brackets around, the innermost first.
  outside : List (Option Candidate)
  candidate : Option Candidate
  mayKey : Bool

namespace Lexer

def initial : Lexer := ⟨[], [], [], none, true⟩

def inFlow (lexer : Lexer) : Bool := !lexer.outside.isEmpty

-- The first column that belongs to the innermost block without being its own.
def level (lexer : Lexer) : Nat :=
  match lexer.columns with
  | [] => 0
  | column :: _ => column + 1

def emit (lexer : Lexer) (token : Token) : Lexer :=
  { lexer with tokens := token :: lexer.tokens }

def startLine (lexer : Lexer) : Lexer :=
  if lexer.inFlow then lexer else { lexer with mayKey := true }

-- Ends the blocks that begin in the column or behind it. Inside brackets columns say
-- nothing.
def endBlocks (lexer : Lexer) (column : Nat) : Lexer :=
  if lexer.inFlow then lexer
  else
    let around := lexer.columns.dropWhile fun own => column ≤ own
    let ended := lexer.columns.length - around.length
    { lexer with tokens := List.replicate ended .blockEnd ++ lexer.tokens, columns := around }

-- Starts a block unless the innermost one begins in the column already.
def startBlock (lexer : Lexer) (column : Nat) (token : Token) : Lexer :=
  if lexer.level ≤ column then { lexer.emit token with columns := column :: lexer.columns }
  else lexer

-- Gives the candidate up. One that is required cannot be.
def drop? (lexer : Lexer) : Option Lexer :=
  if lexer.candidate.any Candidate.required then none else some { lexer with candidate := none }

def propose? (lexer : Lexer) (spot : Spot) : Option Lexer :=
  if lexer.mayKey then
    lexer.drop?.map fun lexer =>
      let required := !lexer.inFlow && lexer.level = spot.column + 1
      { lexer with candidate := some ⟨lexer.tokens.length, required, spot⟩ }
  else some lexer

def openFlow? (lexer : Lexer) (spot : Spot) (token : Token) : Option Lexer :=
  (lexer.propose? spot).map fun lexer =>
    { lexer.emit token with
      outside := lexer.candidate :: lexer.outside, candidate := none, mayKey := true }

def closeFlow? (lexer : Lexer) (token : Token) : Option Lexer :=
  match lexer.drop?, lexer.outside with
  | some lexer, candidate :: outside =>
    some { lexer.emit token with outside := outside, candidate := candidate, mayKey := false }
  | _, _ => none

-- A mark that begins a part of a block, and the block itself where it is the first.
def beginPart? (lexer : Lexer) (spot : Spot) (block part : Token) : Option Lexer :=
  if lexer.inFlow then lexer.drop?.map fun lexer => { lexer.emit part with mayKey := false }
  else if lexer.mayKey then
    (lexer.startBlock spot.column block).drop?.map fun lexer =>
      { lexer.emit part with mayKey := true }
  else none

-- Makes the candidate a key, with a block around it where it is the first of one.
def settle (lexer : Lexer) (candidate : Candidate) : Lexer :=
  let since := lexer.tokens.length - candidate.place
  let before : Lexer := { lexer with tokens := lexer.tokens.drop since }
  let marked :=
    if lexer.inFlow then before else before.startBlock candidate.spot.column .mapBlock
  { marked.emit .key with tokens := lexer.tokens.take since ++ .key :: marked.tokens }

def colon? (lexer : Lexer) (spot : Spot) : Option Lexer :=
  match lexer.candidate with
  | none => lexer.beginPart? spot .mapBlock .value
  | some candidate =>
    if candidate.reaches spot then
      some { (lexer.settle candidate).emit .value with candidate := none, mayKey := false }
    else lexer.drop?.bind fun lexer => lexer.beginPart? spot .mapBlock .value

-- Reads the token in front of the rest, which is neither blank nor a comment. The fuel is
-- at least the length of the rest.
def token? (fuel : Nat) (lexer : Lexer) (spot : Spot) (rest : Remainder) :
    Option (Lexer × Remainder) :=
  let c := spot.point
  let apart := endsMark rest
  if atMarker (spot :: rest) then
    (lexer.endBlocks 0).drop?.map fun lexer =>
      let token := if c = .dot then Token.documentEnd else Token.documentStart
      ({ lexer.emit token with mayKey := false }, rest.drop 2)
  else if c = .ofChar '[' then (lexer.openFlow? spot .openList).map fun lexer => (lexer, rest)
  else if c = .ofChar '\x7b' then (lexer.openFlow? spot .openMap).map fun lexer => (lexer, rest)
  else if c = .ofChar ']' then (lexer.closeFlow? .closeList).map fun lexer => (lexer, rest)
  else if c = .ofChar '\x7d' then (lexer.closeFlow? .closeMap).map fun lexer => (lexer, rest)
  else if c = .ofChar ',' then
    lexer.drop?.map fun lexer => ({ lexer.emit .comma with mayKey := true }, rest)
  else if c = .ofChar '-' && apart then
    if lexer.inFlow then none
    else (lexer.beginPart? spot .listBlock .item).map fun lexer => (lexer, rest)
  else if c = .ofChar '?' && (apart || lexer.inFlow) then
    (lexer.beginPart? spot .mapBlock .key).map fun lexer => (lexer, rest)
  else if c = .colon && (apart || lexer.inFlow) then
    (lexer.colon? spot).map fun lexer => (lexer, rest)
  else if c = .apostrophe || c = .quoteMark then
    match lexer.propose? spot, readQuoted c fuel rest with
    | some lexer, some (text, after) =>
      some ({ lexer.emit (.scalar (.text text)) with mayKey := false }, after)
    | _, _ => none
  else if beginsPlain lexer.inFlow (spot :: rest) then
    let scalar := PlainScalar.read lexer.inFlow lexer.level fuel (spot :: rest)
    if scalar.text = mergeWord then none
    else (lexer.propose? spot).map fun lexer =>
      ({ lexer.emit (.scalar (wordValue scalar.text)) with mayKey := scalar.crossesLine },
        scalar.after)
  else none

-- Every step takes a code point.
def tokens? : Nat → Lexer → Remainder → Option (List Token)
  | 0, _, _ => none
  | fuel + 1, lexer, rest =>
    let (endsLine, rest) := skipBlank false rest
    let lexer := if endsLine then lexer.startLine else lexer
    match rest with
    | [] => (lexer.endBlocks 0).drop?.map fun lexer => lexer.tokens.reverse
    | spot :: after =>
      match (lexer.endBlocks (spot.column + 1)).token? (fuel + 1) spot after with
      | none => none
      | some (lexer, rest) => tokens? fuel lexer rest

end Lexer

def Token.read? (rest : Remainder) : Option (List Token) :=
  Lexer.initial.tokens? (rest.length + 1) rest

end LineShell.Document
