import ChatDispatch.Json.Basic
import ChatDispatch.Text.Numeral
import ChatDispatch.Text.Quoted

/-!
Value trees as text: on one line without spaces, or on many lines with two spaces a level.
-/

namespace ChatDispatch.Json

def escapedChar (c : Char) : List Char :=
  if c = '"' then ['\\', '"']
  else if c = '\\' then ['\\', '\\']
  else if c = '\n' then ['\\', 'n']
  else if c = '\r' then ['\\', 'r']
  else if c = '\t' then ['\\', 't']
  else if c = '\x08' then ['\\', 'b']
  else if c = '\x0c' then ['\\', 'f']
  else if c.toNat < 0x20 then
    '\\' :: 'u' :: '0' :: '0' ::
      (if c.toNat < 0x10 then '0' :: Text.hexadecimal c.toNat else Text.hexadecimal c.toNat)
  else [c]

def stringText (s : String) : String :=
  String.ofList ('"' :: s.toList.flatMap escapedChar ++ ['"'])

mutual

def compact : Json → String
  | .null => "null"
  | .bool value => if value then "true" else "false"
  | .int value => Text.decimal value
  | .real value => value.text
  | .text value => stringText value
  | .array items => "[" ++ ",".intercalate (compactItems items) ++ "]"
  | .object entries => Text.braced (",".intercalate (compactEntries entries))

def compactItems : List Json → List String
  | [] => []
  | item :: rest => compact item :: compactItems rest

def compactEntries : List (String × Json) → List String
  | [] => []
  | (key, value) :: rest => (stringText key ++ ":" ++ compact value) :: compactEntries rest

end

def lineStart (level : Nat) : String :=
  String.ofList ('\n' :: List.replicate (2 * level) ' ')

def block (level : Nat) (opening closing : Char) : List String → String
  | [] => opening.toString ++ closing.toString
  | parts =>
    opening.toString ++ lineStart (level + 1) ++
      ("," ++ lineStart (level + 1)).intercalate parts ++ lineStart level ++ closing.toString

mutual

/-- The tree on many lines, its first line at the given level. -/
def prettyAt (level : Nat) : Json → String
  | .array items => block level '[' ']' (prettyItems (level + 1) items)
  | .object entries => block level '{' '}' (prettyEntries (level + 1) entries)
  | other => compact other

def prettyItems (level : Nat) : List Json → List String
  | [] => []
  | item :: rest => prettyAt level item :: prettyItems level rest

def prettyEntries (level : Nat) : List (String × Json) → List String
  | [] => []
  | (key, value) :: rest =>
    (stringText key ++ ": " ++ prettyAt level value) :: prettyEntries level rest

end

def pretty (tree : Json) : String := prettyAt 0 tree

end ChatDispatch.Json
