import ChatDispatch.Json.Cursor

/-!
Reading JSON text by a shape. The text is read once, front to back, so of a mismatch and a fault of
the text the one that comes first is reported.
-/

namespace ChatDispatch

open Json Json.Reader

def unexpected {α : Type} (expected : String) : Reader α := do
  let wrong (found : Found) : Reader α := failMismatch (.wrongType found expected)
  match ← peek with
  | some 'n' => do skip; word ['u', 'l', 'l']; wrong .null
  | some 't' => do skip; word ['r', 'u', 'e']; wrong (.bool true)
  | some 'f' => do skip; word ['a', 'l', 's', 'e']; wrong (.bool false)
  | some '-' => do skip; wrong (← number true).found
  | some '"' => do skip; wrong (.text (← string))
  | some '[' => wrong .sequence
  | some '{' => wrong .map
  | some c => if c.isDigit then wrong (← number false).found else failNext .expectedValue
  | none => failNext .expectedValue

def readString (expected : String) : Reader String := do
  match ← peekToken with
  | none => failNext .endInValue
  | some '"' => do skip; string
  | some _ => unexpected expected

def readFlag (expected : String) : Reader Bool := do
  match ← peekToken with
  | none => failNext .endInValue
  | some 't' => do skip; word ['r', 'u', 'e']; return true
  | some 'f' => do skip; word ['a', 'l', 's', 'e']; return false
  | some _ => unexpected expected

def readWhole (name : String) (bounds : Text.Bounds) : Reader Int := do
  let accept : Number → Reader Int
    | .int value =>
      if bounds.contains value then return value else failMismatch (.wrongValue (.int value) name)
    | .real value => failMismatch (.wrongType (.real value) name)
  match ← peekToken with
  | none => failNext .endInValue
  | some '-' => do skip; accept (← number true)
  | some c => if c.isDigit then accept (← number false) else unexpected name

def checked {α : Type} : Except Mismatch α → Reader α
  | .ok value => return value
  | .error m => failMismatch m

/-- Pass over as much of the end of a list or an object as is there. -/
def passEnd (closer : Char) : Reader Unit := do
  match ← peekToken with
  | some c =>
    if c = closer then skip
    else if c = ',' ∧ closer = ']' then
      skip
      let _ ← peekToken
  | none => pure ()

/-- Run the body of a list or an object and pass over its end; a mismatch of the whole is reported
behind the end. -/
def closing {α : Type} (closer : Char) (body : Reader (Except Mismatch α)) : Reader α := do
  match ← body with
  | .ok value => do
    if closer = ']' then closeList else closeObject
    return value
  | .error m => do
    passEnd closer
    failMismatch m

def readList {α : Type} (item : Reader α) : Nat → Bool → Reader (List α)
  | 0, _ => failHere .tooDeep
  | fuel + 1, isFirst => do
    if ← anotherItem isFirst then
      let value ← item
      let values ← readList item fuel false
      return value :: values
    else return []

/-- Further entries of an object into slots; a duplicate key ends them. -/
def readEntries {σ : Type} (assign : String → σ → Reader (Except Mismatch σ)) :
    Nat → Bool → σ → Reader (Except Mismatch σ)
  | 0, _, _ => failHere .tooDeep
  | fuel + 1, isFirst, slots => do
    if ← anotherEntry isFirst then
      skip
      let key ← string
      match ← assign key slots with
      | .ok slots => readEntries assign fuel false slots
      | .error m => return .error m
    else return .ok slots

mutual

/-- The value that is next, read by the shape; `fuel` is the length of the text. -/
def Shape.read (fuel : Nat) (shape : Shape) : Reader shape.Carrier :=
  match shape with
  | .text => readString Shape.text.expected
  | .path => readString Shape.path.expected
  | .flag => readFlag Shape.flag.expected
  | .whole name bounds => readWhole name bounds
  | .instant => do
    let text ← readString Shape.instant.expected
    checked ((Text.Instant.parse text.toList).mapError .badDate)
  | .choice options => do
    let text ← readString "string or map"
    checked (Shape.optionIndex options text)
  | .list item => do
    match ← peekToken with
    | none => failNext .endInValue
    | some '[' => do
      skip
      let items ← readList (item.read fuel) fuel true
      closeList
      return items
    | some _ => unexpected "a sequence"
  | .optional inner => do
    match ← peekToken with
    | some 'n' => do
      skip
      word ['u', 'l', 'l']
      return (none : Option inner.Carrier)
    | _ => do
      let value ← inner.read fuel
      return some value
  | .record name fields => do
    match ← peekToken with
    | none => failNext .endInValue
    | some '[' => do
      skip
      closing ']' (fields.readItems fuel (Shape.positional name fields) 0)
    | some '{' => do
      skip
      closing '}' do
        match ← readEntries (fields.readField fuel) fuel true fields.noSlots with
        | .ok slots => return fields.close slots
        | .error m => return .error m
    | some _ => unexpected ("struct " ++ name)

def Fields.readItems (fuel : Nat) (fields : Fields) (whole : String) (index : Nat) :
    Reader (Except Mismatch fields.Carrier) :=
  match fields with
  | .nil => return .ok ()
  | .cons _ required shape rest => do
    if ← anotherItem (index = 0) then
      let value ← shape.read fuel
      match ← rest.readItems fuel whole (index + 1) with
      | .ok values => return .ok (value, values)
      | .error m => return .error m
    else if required then return .error (.wrongLength index whole)
    else
      match ← rest.readItems fuel whole (index + 1) with
      | .ok values => return .ok (shape.default, values)
      | .error m => return .error m

/-- Read the value of a key, the colon included, into its slot; that of an unknown key is passed
over. -/
def Fields.readField (fuel : Nat) (fields : Fields) (key : String) (slots : fields.Slots) :
    Reader (Except Mismatch fields.Slots) :=
  match fields, slots with
  | .nil, _ => do
    colon
    skipValue fuel
    return .ok ()
  | .cons name _ shape rest, (slot, others) =>
    if key = name then
      match slot with
      | some _ => return .error (.duplicateField name)
      | none => do
        colon
        let value ← shape.read fuel
        return .ok (some value, others)
    else do
      match ← rest.readField fuel key others with
      | .ok others => return .ok (slot, others)
      | .error m => return .error m

end

def Shape.ofText (shape : Shape) (text : String) : Except Problem shape.Carrier :=
  (shape.read (text.length + 1)).run text.toList

end ChatDispatch
