import ChatDispatch.Json.Cursor

/-!
A JSON text as a value tree. Objects come out in increasing order of their keys, the last of equal
keys winning; nesting is limited.
-/

namespace ChatDispatch.Json

namespace Reader

def Number.tree : Number → Json
  | int value => .int value
  | real value => .real value

def depthLimit : Nat := 127

def listItems (item : Reader Json) : Nat → Bool → Reader (List Json)
  | 0, _ => failHere .tooDeep
  | fuel + 1, isFirst => do
    if ← anotherItem isFirst then
      let value ← item
      let values ← listItems item fuel false
      return value :: values
    else return []

def objectEntries (item : Reader Json) : Nat → Bool → Reader (List (String × Json))
  | 0, _ => failHere .tooDeep
  | fuel + 1, isFirst => do
    if ← anotherEntry isFirst then
      skip
      let key ← string
      colon
      let value ← item
      let entries ← objectEntries item fuel false
      return (key, value) :: entries
    else return []

def scalar : Reader Json := do
  match ← peekToken with
  | none => failNext .endInValue
  | some 'n' => do skip; word ['u', 'l', 'l']; return .null
  | some 't' => do skip; word ['r', 'u', 'e']; return .bool true
  | some 'f' => do skip; word ['a', 'l', 's', 'e']; return .bool false
  | some '-' => do skip; return (← number true).tree
  | some '"' => do skip; return .text (← string)
  | some c => if c.isDigit then return (← number false).tree else failNext .expectedValue

/-- A value with at most `depth` open lists and objects inside it. -/
def tree (fuel : Nat) : Nat → Reader Json
  | 0 => do
    match ← peekToken with
    | some '[' => failNext .tooDeep
    | some '{' => failNext .tooDeep
    | _ => scalar
  | depth + 1 => do
    match ← peekToken with
    | some '[' => do
      skip
      let items ← listItems (tree fuel depth) fuel true
      closeList
      return .array items
    | some '{' => do
      skip
      let entries ← objectEntries (tree fuel depth) fuel true
      closeObject
      return ofEntries entries
    | _ => scalar

end Reader

def parse (text : String) : Except Problem Json :=
  (Reader.tree (text.length + 1) Reader.depthLimit).run text.toList

end ChatDispatch.Json
