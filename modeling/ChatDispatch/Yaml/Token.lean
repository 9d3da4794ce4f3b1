import ChatDispatch.Yaml.Block
import ChatDispatch.Yaml.Tag

/-!
The tokens of a text. Indentation opens and closes blocks, and a text becomes a key only when a
colon is met behind it: until then its place is held by a token of its own, which stands for
nothing if no colon comes. Names of nodes are numbered, and tags are given in full.
-/

namespace ChatDispatch.Yaml

inductive Token where
  | version (major minor : Nat)
  | handle
  | documentStart
  | documentEnd
  | openSequence
  | openMapping
  | closeBlock
  | openList
  | closeList
  | openMap
  | closeMap
  | entry
  | comma
  | key
  | value
  | name (number : Nat)
  | reference (number : Nat)
  | tag (name : String)
  | scalar (text : String) (isPlain : Bool)
  | held (place : Nat)
  deriving DecidableEq, Repr

/-- A token that may turn out to be a key. One that starts a line of a block has to be one. -/
structure Candidate where
  place : Nat
  spot : Spot
  isRequired : Bool
  deriving DecidableEq, Repr

/-- A lexer at work: what is left, the tokens found (latest first), the columns of the open blocks
(innermost first), whether a key may start here, the candidate of the innermost brackets and those
of the brackets around them, the places held so far, what some of them turned out to hold, the
numbers of the names given to nodes, and the handles of tags. -/
structure Lexer where
  rest : List Spot
  found : List Token := []
  indents : List Nat := []
  keyAllowed : Bool := true
  candidate : Option Candidate := none
  outer : List (Option Candidate) := []
  places : Nat := 0
  keys : List (Nat × List Token) := []
  names : List (String × Nat) := []
  handles : List (List Char × List Char) := []

namespace Lexer

/-- Inside brackets, where indentation means nothing. -/
def inFlow (lexer : Lexer) : Bool := !lexer.outer.isEmpty

def parent (lexer : Lexer) : Nat :=
  match lexer.indents with
  | [] => 0
  | indent :: _ => indent + 1

def emit (lexer : Lexer) (token : Token) : Lexer :=
  { lexer with found := token :: lexer.found }

def drop (lexer : Lexer) (count : Nat) : Lexer :=
  { lexer with rest := lexer.rest.drop count }

def allowKey (lexer : Lexer) (allowed : Bool) : Lexer := { lexer with keyAllowed := allowed }

/-- Pass over gaps, comments, line breaks and the byte order marks that start a line: whether a key
may start behind them, and what follows. -/
def passGaps (inFlow keyAllowed inComment : Bool) : List Spot → Bool × List Spot
  | [] => (keyAllowed, [])
  | spot :: rest =>
    let c := spot.char
    if isBreak c then passGaps inFlow (keyAllowed || !inFlow) false rest
    else if inComment || isOrderMark spot || c == ' ' || (c == '\t' && (inFlow || !keyAllowed)) then
      passGaps inFlow keyAllowed inComment rest
    else if c == '#' then passGaps inFlow keyAllowed true rest
    else (keyAllowed, spot :: rest)

def closeBlocks (column : Nat) : List Nat → List Token → List Nat × List Token
  | [], found => ([], found)
  | indent :: indents, found =>
    if column ≤ indent then closeBlocks column indents (.closeBlock :: found)
    else (indent :: indents, found)

def unroll (lexer : Lexer) (column : Nat) : Lexer :=
  if lexer.inFlow then lexer
  else
    let (indents, found) := closeBlocks (column + 1) lexer.indents lexer.found
    { lexer with indents, found }

def unrollAll (lexer : Lexer) : Lexer :=
  if lexer.inFlow then lexer
  else
    let (indents, found) := closeBlocks 0 lexer.indents lexer.found
    { lexer with indents, found }

/-- Give the candidate up; one that has to be a key is missing its colon. -/
def forget (lexer : Lexer) : Except Fault Lexer :=
  match lexer.candidate with
  | some candidate =>
    if candidate.isRequired then
      .error (.missingColon candidate.spot.line candidate.spot.column)
    else .ok { lexer with candidate := none }
  | none => .ok lexer

def keyLimit : Nat := 1024

def expire (lexer : Lexer) (here : Spot) : Except Fault Lexer :=
  match lexer.candidate with
  | some candidate =>
    if candidate.spot.line < here.line || candidate.spot.index + keyLimit < here.index then
      lexer.forget
    else .ok lexer
  | none => .ok lexer

/-- Hold a place for the next token, which may be a key. -/
def hold (lexer : Lexer) (here : Spot) : Except Fault Lexer := do
  if lexer.keyAllowed then
    let isRequired := !lexer.inFlow && lexer.indents.head? == some here.column
    let lexer ← lexer.forget
    return { lexer.emit (.held lexer.places) with
      candidate := some ⟨lexer.places, here, isRequired⟩
      places := lexer.places + 1 }
  else return lexer

def startsBlock (lexer : Lexer) (column : Nat) : Bool :=
  !lexer.inFlow && lexer.indents.head?.all (· < column)

def roll (lexer : Lexer) (column : Nat) (token : Token) : Lexer :=
  if lexer.startsBlock column then
    { lexer.emit token with indents := column :: lexer.indents }
  else lexer

/-- A block entry or an explicit key or value starts only where a key may. -/
def openBlock (lexer : Lexer) (here : Spot) (token : Token) : Except Fault Lexer :=
  if lexer.inFlow then .ok lexer
  else if lexer.keyAllowed then .ok (lexer.roll here.column token)
  else .error (.misplacedEntry here.line here.column)

def openBrackets (lexer : Lexer) (here : Spot) (token : Token) : Except Fault Lexer := do
  let lexer ← lexer.hold here
  return { (lexer.emit token).drop 1 with
    outer := lexer.candidate :: lexer.outer, candidate := none, keyAllowed := true }

def closeBrackets (lexer : Lexer) (token : Token) : Except Fault Lexer := do
  let lexer ← lexer.forget
  let lexer := (lexer.emit token).drop 1
  match lexer.outer with
  | [] => return { lexer with keyAllowed := false }
  | candidate :: outer => return { lexer with candidate, outer, keyAllowed := false }

def takeComma (lexer : Lexer) : Except Fault Lexer := do
  let lexer ← lexer.forget
  return ((lexer.emit .comma).drop 1).allowKey true

def takeEntry (lexer : Lexer) (here : Spot) : Except Fault Lexer := do
  let lexer ← (← lexer.openBlock here .openSequence).forget
  return ((lexer.emit .entry).drop 1).allowKey true

def takeKey (lexer : Lexer) (here : Spot) : Except Fault Lexer := do
  let lexer ← (← lexer.openBlock here .openMapping).forget
  return ((lexer.emit .key).drop 1).allowKey !lexer.inFlow

/-- Take a colon: the candidate becomes a key, and opens a block if it is the first of one. -/
def takeValue (lexer : Lexer) (here : Spot) : Except Fault Lexer := do
  match lexer.candidate with
  | some candidate =>
    let column := candidate.spot.column
    let isNew := lexer.startsBlock column
    let held := if isNew then [.openMapping, .key] else [.key]
    let indents := if isNew then column :: lexer.indents else lexer.indents
    return { (lexer.emit .value).drop 1 with
      keys := (candidate.place, held) :: lexer.keys
      indents, candidate := none, keyAllowed := false }
  | none =>
    let lexer ← lexer.openBlock here .openMapping
    return ((lexer.emit .value).drop 1).allowKey !lexer.inFlow

def takeText (lexer : Lexer) (reading : Reading) (isPlain : Bool) : Lexer :=
  { lexer.emit (.scalar (String.ofList reading.text) isPlain) with
    rest := reading.rest, keyAllowed := reading.endsLine }

def takePlain (lexer : Lexer) (here : Spot) : Except Fault Lexer := do
  let lexer ← lexer.hold here
  return lexer.takeText (← plain lexer.inFlow lexer.parent lexer.rest) true

def takeQuoted (lexer : Lexer) (here : Spot) (isDouble : Bool) : Except Fault Lexer := do
  let lexer ← lexer.hold here
  return lexer.takeText (← quoted isDouble (lexer.rest.drop 1)) false

def takeBlock (lexer : Lexer) (isFolded : Bool) : Except Fault Lexer := do
  let lexer ← lexer.forget
  return lexer.takeText (← blockText isFolded lexer.parent (lexer.rest.drop 1)) false

def takeMarker (lexer : Lexer) (token : Token) : Except Fault Lexer := do
  let lexer ← lexer.unrollAll.forget
  return ((lexer.emit token).drop 3).allowKey false

/-- The number that some digits stand for; at most nine are read. -/
def versionNumber? (digits : List Spot) : Option Nat :=
  if digits.isEmpty || 9 < digits.length then none
  else some (digits.foldl (fun n spot => n * 10 + (spot.char.toNat - '0'.toNat)) 0)

def versionNumbers (spots : List Spot) : Except Fault (Nat × Nat × List Spot) :=
  let number := spots.dropWhile (isGap ·.char)
  let point := number.dropWhile (·.char.isDigit)
  let minor := point.drop 1
  match versionNumber? (number.takeWhile (·.char.isDigit)),
      versionNumber? (minor.takeWhile (·.char.isDigit)) with
  | some major, some minorNumber =>
    if startsWithChar '.' point then .ok (major, minorNumber, minor.dropWhile (·.char.isDigit))
    else .error .badDirective
  | _, _ => .error .badDirective

def endDirective (lexer : Lexer) (spots : List Spot) : Except Fault Lexer :=
  let behind := spots.dropWhile (isGap ·.char)
  let behind := if startsWithChar '#' behind then behind.dropWhile (!isBreak ·.char) else behind
  if behind.head?.any (!isBreak ·.char) then .error .badDirective
  else .ok { lexer with rest := behind.drop 1, keyAllowed := false }

/-- Take a directive: the version, or a handle with what it stands for, which is given once. -/
def takeDirective (lexer : Lexer) : Except Fault Lexer := do
  let lexer ← lexer.unrollAll.forget
  let name := (lexer.rest.drop 1).takeWhile (isNameChar ·.char)
  let behind := (lexer.rest.drop 1).dropWhile (isNameChar ·.char)
  if !isWordEnd behind then throw .badDirective
  match String.ofList (name.map Spot.char) with
  | "YAML" => do
    let (major, minor, rest) ← versionNumbers behind
    (lexer.emit (.version major minor)).endDirective rest
  | "TAG" => do
    let (handle, start, rest) ← Tag.readDirective behind
    if (lexer.handles.lookup handle).isSome then throw .badDirective
    ({ lexer.emit .handle with handles := (handle, start) :: lexer.handles }).endDirective rest
  | _ => throw .badDirective

/-- Take a name for the node that follows. It gets the count of names so far as its number, also
if it has been given before. -/
def takeName (lexer : Lexer) (here : Spot) : Except Fault Lexer := do
  let lexer ← lexer.hold here
  let (name, rest) ← nameOfNode (lexer.rest.drop 1)
  let number := lexer.names.length
  return { lexer.emit (.name number) with
    names := (name, number) :: lexer.names.filter (·.1 ≠ name)
    rest, keyAllowed := false }

def takeReference (lexer : Lexer) (here : Spot) : Except Fault Lexer := do
  let lexer ← lexer.hold here
  let (name, rest) ← nameOfNode (lexer.rest.drop 1)
  match lexer.names.lookup name with
  | some number => return { lexer.emit (.reference number) with rest, keyAllowed := false }
  | none => throw .unknownName

def takeTag (lexer : Lexer) (here : Spot) : Except Fault Lexer := do
  let lexer ← lexer.hold here
  let (tag, rest) ← Tag.read lexer.inFlow lexer.rest
  match tag.full? lexer.handles with
  | some name => return { lexer.emit (.tag name) with rest, keyAllowed := false }
  | none => throw .badTag

/-- Characters that no plain text starts with, or only under conditions. -/
def isIndicator (c : Char) : Bool :=
  c ∈ ['-', '?', ':', ',', '[', ']', '{', '}', '#', '&', '*', '!', '|', '>', '\'', '"', '%',
    '@', '\x60']

def startsPlain (inFlow : Bool) (c : Char) (behind : List Spot) : Bool :=
  (!isGap c && !isBreak c && !isIndicator c) ||
    (c == '-' && behind.head?.any (!isGap ·.char)) ||
    (!inFlow && (c == '?' || c == ':') && !isWordEnd behind)

def takeAt (lexer : Lexer) (here : Spot) (behind : List Spot) : Except Fault Lexer :=
  let c := here.char
  let isSeparate := lexer.inFlow || isWordEnd behind
  if here.column == 0 && c == '%' then lexer.takeDirective
  else if isMarker '-' lexer.rest then lexer.takeMarker .documentStart
  else if isMarker '.' lexer.rest then lexer.takeMarker .documentEnd
  else if c == '[' then lexer.openBrackets here .openList
  else if c == '{' then lexer.openBrackets here .openMap
  else if c == ']' then lexer.closeBrackets .closeList
  else if c == '}' then lexer.closeBrackets .closeMap
  else if c == ',' then lexer.takeComma
  else if c == '-' && isWordEnd behind then lexer.takeEntry here
  else if c == '?' && isSeparate then lexer.takeKey here
  else if c == ':' && isSeparate then lexer.takeValue here
  else if c == '&' then lexer.takeName here
  else if c == '*' then lexer.takeReference here
  else if c == '!' then lexer.takeTag here
  else if c == '|' && !lexer.inFlow then lexer.takeBlock false
  else if c == '>' && !lexer.inFlow then lexer.takeBlock true
  else if c == '\'' then lexer.takeQuoted here false
  else if c == '"' then lexer.takeQuoted here true
  else if startsPlain lexer.inFlow c behind then lexer.takePlain here
  else .error (.strayCharacter here.line here.column)

def step (lexer : Lexer) : Except Fault (Lexer × Bool) := do
  let (keyAllowed, rest) := passGaps lexer.inFlow lexer.keyAllowed false lexer.rest
  let lexer := { lexer with keyAllowed, rest }
  match rest with
  | [] => return (← lexer.unrollAll.forget, false)
  | here :: behind =>
    let lexer ← lexer.expire here
    return (← (lexer.unroll here.column).takeAt here behind, true)

def run : Nat → Lexer → Except Fault Lexer
  | 0, lexer => .ok lexer
  | fuel + 1, lexer => do
    let (lexer, goesOn) ← lexer.step
    if goesOn then run fuel lexer else return lexer

/-- The tokens found, each held place with what it turned out to hold. -/
def tokens (lexer : Lexer) : List Token :=
  lexer.found.reverse.flatMap fun token =>
    match token with
    | .held place => (lexer.keys.lookup place).getD []
    | other => [other]

end Lexer

def Token.ofText (text : String) : Except Fault (List Token) := do
  let characters := text.toList
  if !characters.all (fun c => isAllowed c) then throw .forbiddenCharacter
  let spots := locate characters
  let lexer ← Lexer.run (spots.length + 1) { rest := spots }
  return lexer.tokens

end ChatDispatch.Yaml
