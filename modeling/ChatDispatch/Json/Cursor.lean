import ChatDispatch.Decimal.Binary64
import ChatDispatch.Shape.Basic

/-!
Reading JSON text character by character. A cursor keeps what is left of the text and its place:
the line, and the bytes since the start of the line. Readers take a cursor and give a value with
the cursor behind it, or a problem with its place.
-/

namespace ChatDispatch.Json

inductive SyntaxFault where
  | endInList
  | endInObject
  | endInString
  | endInValue
  | expectedColon
  | expectedListEnd
  | expectedObjectEnd
  | expectedWord
  | expectedValue
  | badEscape
  | badNumber
  | numberOutOfRange
  | controlCharacter
  | keyNotString
  | loneSurrogate
  | trailingComma
  | trailingCharacters
  | endOfEscape
  | tooDeep
  deriving DecidableEq, Repr

def SyntaxFault.message : SyntaxFault → String
  | endInList => "EOF while parsing a list"
  | endInObject => "EOF while parsing an object"
  | endInString => "EOF while parsing a string"
  | endInValue => "EOF while parsing a value"
  | expectedColon => "expected `:`"
  | expectedListEnd => "expected `,` or `]`"
  | expectedObjectEnd => "expected `,` or `\x7d`"
  | expectedWord => "expected ident"
  | expectedValue => "expected value"
  | badEscape => "invalid escape"
  | badNumber => "invalid number"
  | numberOutOfRange => "number out of range"
  | controlCharacter => "control character (\\u0000-\\u001F) found while parsing a string"
  | keyNotString => "key must be a string"
  | loneSurrogate => "lone leading surrogate in hex escape"
  | trailingComma => "trailing comma"
  | trailingCharacters => "trailing characters"
  | endOfEscape => "unexpected end of hex escape"
  | tooDeep => "recursion limit exceeded"

/-- A line, counted from one, and the bytes before a place in it. -/
structure Place where
  line : Nat
  column : Nat
  deriving DecidableEq, Repr

/-- The text is not JSON, or its data does not have the shape. -/
inductive Problem where
  | syntaxFault (fault : SyntaxFault) (place : Place)
  | mismatch (mismatch : Mismatch) (place : Place)
  deriving Repr

def Problem.message : Problem → String
  | syntaxFault fault place =>
    fault.message ++ " at line " ++ toString place.line ++ " column " ++ toString place.column
  | mismatch m place =>
    m.message ++ " at line " ++ toString place.line ++ " column " ++ toString place.column

structure Cursor where
  rest : List Char
  place : Place

def Place.afterByte (place : Place) (c : Char) : Place :=
  if c = '\n' then ⟨place.line + 1, 0⟩ else ⟨place.line, place.column + 1⟩

def Place.after (place : Place) (c : Char) : Place :=
  if c = '\n' then ⟨place.line + 1, 0⟩ else ⟨place.line, place.column + c.utf8Size⟩

abbrev Reader := StateT Cursor (Except Problem)

namespace Reader

def peek : Reader (Option Char) := do
  return (← get).rest.head?

def skip : Reader Unit :=
  modify fun cursor =>
    match cursor.rest with
    | [] => cursor
    | c :: rest => ⟨rest, cursor.place.after c⟩

def failHere {α : Type} (fault : SyntaxFault) : Reader α := do
  throw (.syntaxFault fault (← get).place)

/-- Fail behind the first byte of the next character, or at the end of the text. -/
def failNext {α : Type} (fault : SyntaxFault) : Reader α := do
  let cursor ← get
  let place := match cursor.rest with
    | [] => cursor.place
    | c :: _ => cursor.place.afterByte c
  throw (.syntaxFault fault place)

def failMismatch {α : Type} (m : Mismatch) : Reader α := do
  throw (.mismatch m (← get).place)

def isSpace (c : Char) : Bool := c == ' ' || c == '\n' || c == '\t' || c == '\r'

def skipWhile (p : Char → Bool) : Reader Unit :=
  modify fun cursor =>
    ⟨cursor.rest.dropWhile p, (cursor.rest.takeWhile p).foldl Place.after cursor.place⟩

/-- The next character that is not a space, which stays in front. -/
def peekToken : Reader (Option Char) := do
  skipWhile isSpace
  peek

/-- The rest of `null`, `true` or `false`. -/
def word : List Char → Reader Unit
  | [] => pure ()
  | c :: more => do
    match ← peek with
    | none => failHere .endInValue
    | some d =>
      if c = d then
        skip
        word more
      else failNext .expectedWord

def takeDigits : Reader (List Char) := do
  let found := (← get).rest.takeWhile Char.isDigit
  skipWhile Char.isDigit
  return found

def digitsValue (digits : List Char) : Nat :=
  digits.foldl (fun n c => 10 * n + (c.toNat - '0'.toNat)) 0

/-- Read on behind `value` as long as it keeps to 64 bits; the digits that are left. -/
def fittingDigits : Nat → List Char → Nat × List Char
  | value, [] => (value, [])
  | value, c :: rest =>
    let next := 10 * value + (c.toNat - '0'.toNat)
    if next ≤ 0xFFFFFFFFFFFFFFFF then fittingDigits next rest else (value, c :: rest)

inductive Number where
  | int (value : Int)
  | real (value : Decimal.Binary64)

def Number.found : Number → Found
  | int value => .int value
  | real value => .real value

/-- The whole part: one zero, or digits that do not begin with one. -/
def wholePart : Reader (List Char) := do
  match ← peek with
  | none => failHere .endInValue
  | some '0' => do
    skip
    match ← peek with
    | some d => if d.isDigit then failNext .badNumber else return ['0']
    | none => return ['0']
  | some c => if c.isDigit then takeDigits else failNext .badNumber

def fractionPart : Reader (Option (List Char)) := do
  match ← peek with
  | some '.' => do
    skip
    let digits ← takeDigits
    if digits.isEmpty then
      match ← peek with
      | none => failHere .endInValue
      | some _ => failNext .badNumber
    else return some digits
  | _ => return none

def exponentLimit : Nat := 2147483647

/-- How many digits behind `value` it takes to get beyond the limit, if they do. -/
def digitsBeyondLimit? : Nat → List Char → Option Nat
  | _, [] => none
  | value, c :: rest =>
    let next := 10 * value + (c.toNat - '0'.toNat)
    if exponentLimit < next then some 1 else (digitsBeyondLimit? next rest).map (· + 1)

/-- The power of ten behind an `e`, none if there is no `e`. Where it scales up a number that is not
zero, reading ends behind the digit that takes it beyond the limit. -/
def exponentPart (isZero : Bool) : Reader (Option Int) := do
  match ← peek with
  | some c =>
    if c = 'e' ∨ c = 'E' then
      skip
      let sign ← match ← peek with
        | some '-' => do skip; pure (-1 : Int)
        | some '+' => do skip; pure (1 : Int)
        | _ => pure 1
      match ← peek with
      | none => failHere .endInValue
      | some d =>
        if d.isDigit then do
          let start ← get
          let digits ← takeDigits
          let overrun := if sign = 1 ∧ !isZero then digitsBeyondLimit? 0 digits else none
          match overrun with
          | none => return some (sign * digitsValue digits)
          | some count =>
            let place := (digits.take count).foldl Place.after start.place
            throw (.syntaxFault .numberOutOfRange place)
        else failNext .badNumber
    else return none
  | none => return none

/-- A number whose sign has been passed over. Whole numbers of 64 bits stay whole; all others, and
a negative zero, become the binary number that the digits within 64 bits scale to. -/
def number (negative : Bool) : Reader Number := do
  let whole ← wholePart
  let fraction ← fractionPart
  let behind := fraction.getD []
  let value := digitsValue whole
  let exponent ← exponentPart (value = 0 && digitsValue behind = 0)
  let isWhole := fraction.isNone && exponent.isNone &&
    (if negative then 0 < value && value ≤ 0x8000000000000000 else value ≤ 0xFFFFFFFFFFFFFFFF)
  if isWhole then return .int (if negative then -value else value)
  else
    let (digits, beyond) := fittingDigits 0 whole
    let (digits, unused) := fittingDigits digits behind
    let scale : Int := exponent.getD 0 + beyond.length - (behind.length - unused.length : Nat)
    match Decimal.scaled? negative digits scale with
    | some x => return .real x
    | none => failHere .numberOutOfRange

def placeAfterBytes : Nat → List Char → Place → Option Place
  | 0, _, place => some place
  | _ + 1, [], _ => none
  | n + 1, c :: rest, place =>
    if c.utf8Size ≤ n + 1 then placeAfterBytes (n + 1 - c.utf8Size) rest (place.after c)
    else some ⟨place.line, place.column + n + 1⟩
  termination_by _ text => text.length

def fourHexDigits : Reader Nat := do
  let cursor ← get
  match placeAfterBytes 4 cursor.rest cursor.place with
  | none =>
    set (⟨[], cursor.rest.foldl Place.after cursor.place⟩ : Cursor)
    failHere .endInString
  | some place =>
    match (cursor.rest.take 4).mapM (Text.digitValue? 16) with
    | some values =>
      set (⟨cursor.rest.drop 4, place⟩ : Cursor)
      return values.foldl (fun n v => 16 * n + v) 0
    | none => throw (.syntaxFault .badEscape place)

def pairMark (c : Char) : Reader Unit := do
  match ← peek with
  | none => failHere .endInString
  | some d =>
    if c = d then skip
    else failNext .endOfEscape

/-- The character of a numbered escape, whose `\u` has been passed over. -/
def numberedEscape : Reader Char := do
  let first ← fourHexDigits
  if 0xDC00 ≤ first ∧ first ≤ 0xDFFF then failHere .loneSurrogate
  else if first < 0xD800 ∨ 0xDBFF < first then return Char.ofNat first
  else
    pairMark '\\'
    pairMark 'u'
    let second ← fourHexDigits
    if second < 0xDC00 ∨ 0xDFFF < second then failHere .loneSurrogate
    else return Char.ofNat ((first - 0xD800) * 0x400 + (second - 0xDC00) + 0x10000)

def shortEscape? (c : Char) : Option Char :=
  if c = '"' ∨ c = '\\' ∨ c = '/' then some c
  else if c = 'b' then some '\x08'
  else if c = 'f' then some '\x0c'
  else if c = 'n' then some '\n'
  else if c = 'r' then some '\r'
  else if c = 't' then some '\t'
  else none

def escapeLetter : Reader Char := do
  match ← peek with
  | none => failHere .endInString
  | some c =>
    if c = 'u' ∨ (shortEscape? c).isSome then
      skip
      return c
    else failNext .badEscape

/-- The characters up to the closing quote; `fuel` is the length of the text. -/
def stringFrom : Nat → List Char → Reader (List Char)
  | 0, _ => failHere .endInString
  | fuel + 1, behind => do
    match ← peek with
    | none => failHere .endInString
    | some c =>
      if c = '"' then
        skip
        return behind.reverse
      else if c = '\\' then
        skip
        match shortEscape? (← escapeLetter) with
        | some c => stringFrom fuel (c :: behind)
        | none => do
          let c ← numberedEscape
          stringFrom fuel (c :: behind)
      else if c.toNat < 0x20 then failNext .controlCharacter
      else
        skip
        stringFrom fuel (c :: behind)

def string : Reader String := do
  let text ← stringFrom ((← get).rest.length + 1) []
  return String.ofList text

/-- Pass over the rest of a string that nobody reads: numbered escapes may be of any value, and a
control character is a fault in front of it. -/
def skipStringFrom : Nat → Reader Unit
  | 0 => failHere .endInString
  | fuel + 1 => do
    match ← peek with
    | none => failHere .endInString
    | some c =>
      if c = '"' then skip
      else if c = '\\' then
        skip
        if (shortEscape? (← escapeLetter)).isSome then skipStringFrom fuel
        else
          let _ ← fourHexDigits
          skipStringFrom fuel
      else if c.toNat < 0x20 then failHere .controlCharacter
      else
        skip
        skipStringFrom fuel

def skipString : Reader Unit := do
  skipStringFrom ((← get).rest.length + 1)

def skipNumber : Reader Unit := do
  match ← peek with
  | some '0' => do
    skip
    match ← peek with
    | some d => if d.isDigit then failNext .badNumber
    | none => pure ()
  | some c => if c.isDigit then skipWhile Char.isDigit else failNext .badNumber
  | none => failHere .badNumber
  match ← peek with
  | some '.' => do
    skip
    let digits ← takeDigits
    if digits.isEmpty then failNext .badNumber
  | _ => pure ()
  match ← peek with
  | some c =>
    if c = 'e' ∨ c = 'E' then
      skip
      match ← peek with
      | some d => if d = '-' ∨ d = '+' then skip
      | none => pure ()
      let digits ← takeDigits
      if digits.isEmpty then failNext .badNumber
  | none => pure ()

def colon : Reader Unit := do
  match ← peekToken with
  | some ':' => skip
  | some _ => failNext .expectedColon
  | none => failNext .endInObject

/-- Pass over a value that nobody reads; `fuel` bounds the values inside it. -/
def skipValue : Nat → Reader Unit
  | 0 => failHere .tooDeep
  | fuel + 1 => do
    match ← peekToken with
    | none => failNext .endInValue
    | some 'n' => do skip; word ['u', 'l', 'l']
    | some 't' => do skip; word ['r', 'u', 'e']
    | some 'f' => do skip; word ['a', 'l', 's', 'e']
    | some '-' => do skip; skipNumber
    | some '"' => do skip; skipString
    | some '[' => do skip; items fuel (skipValue fuel) true
    | some '{' => do skip; entries fuel (skipValue fuel) true
    | some c => if c.isDigit then skipNumber else failNext .expectedValue
where
  /-- The items up to the closing bracket. -/
  items : Nat → Reader Unit → Bool → Reader Unit
    | 0, _, _ => failHere .tooDeep
    | count + 1, item, isFirst => do
      match ← peekToken with
      | none => failNext .endInList
      | some ']' => skip
      | some c =>
        if isFirst then
          item
          items count item false
        else if c = ',' then
          skip
          item
          items count item false
        else failNext .expectedListEnd
  /-- The entries up to the closing brace. -/
  entries : Nat → Reader Unit → Bool → Reader Unit
    | 0, _, _ => failHere .tooDeep
    | count + 1, item, isFirst => do
      match ← peekToken with
      | none => failNext .endInObject
      | some '}' => skip
      | some c =>
        if isFirst ∨ c = ',' then
          if !isFirst then skip
          match ← peekToken with
          | some '"' => do skip; skipString
          | some _ => failNext .keyNotString
          | none => failNext .endInObject
          colon
          item
          entries count item false
        else failNext .expectedObjectEnd

def anotherItem (isFirst : Bool) : Reader Bool := do
  match ← peekToken with
  | none => failNext .endInList
  | some ']' => return false
  | some c =>
    if isFirst then return true
    else if c = ',' then
      skip
      match ← peekToken with
      | some ']' => failNext .trailingComma
      | some _ => return true
      | none => failNext .endInValue
    else failNext .expectedListEnd

def anotherEntry (isFirst : Bool) : Reader Bool := do
  match ← peekToken with
  | none => failNext .endInObject
  | some '}' => return false
  | some c =>
    if isFirst then
      if c = '"' then return true else failNext .keyNotString
    else if c = ',' then
      skip
      match ← peekToken with
      | some '"' => return true
      | some '}' => failNext .trailingComma
      | some _ => failNext .keyNotString
      | none => failNext .endInValue
    else failNext .expectedObjectEnd

def closeList : Reader Unit := do
  match ← peekToken with
  | some ']' => skip
  | some ',' => do
    skip
    match ← peekToken with
    | some ']' => failNext .trailingComma
    | _ => failNext .trailingCharacters
  | some _ => failNext .trailingCharacters
  | none => failNext .endInList

def closeObject : Reader Unit := do
  match ← peekToken with
  | some '}' => skip
  | some ',' => failNext .trailingComma
  | some _ => failNext .trailingCharacters
  | none => failNext .endInObject

def finish : Reader Unit := do
  match ← peekToken with
  | some _ => failNext .trailingCharacters
  | none => pure ()

def run {α : Type} (reader : Reader α) (text : List Char) : Except Problem α :=
  (do let value ← reader; finish; return value).run' ⟨text, ⟨1, 0⟩⟩

end Reader

end ChatDispatch.Json
