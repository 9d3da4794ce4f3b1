import ChatDispatch.Yaml.Flowing

/-!
The marks in front of a node: a name by which it can be referred to, and a tag that says what its
value is. A tag is a handle, which stands for some text, and a suffix, or it is written in full
between angle brackets.
-/

namespace ChatDispatch.Yaml

def isNameChar (c : Char) : Bool := c.isAlphanum || c == '-' || c == '_'

def isNameEnd (c : Char) : Bool :=
  c ∈ ['?', ':', ',', ']', '}', '%', '@', '\x60']

def nameOfNode (spots : List Spot) : Except Fault (String × List Spot) :=
  let name := (spots.takeWhile (isNameChar ·.char)).map Spot.char
  let rest := spots.dropWhile (isNameChar ·.char)
  if name.isEmpty || !(isWordEnd rest || rest.head?.any (isNameEnd ·.char)) then .error .badName
  else .ok (String.ofList name, rest)

/-- A tag as it is written; the handle of one in full is empty. -/
structure Tag where
  handle : List Char
  suffix : List Char
  deriving DecidableEq, Repr

namespace Tag

/-- Characters of a tag; lists may be written in one that is given in full. -/
def isTagChar (isFull : Bool) (c : Char) : Bool :=
  isNameChar c ||
    c ∈ [';', '/', '?', ':', '@', '&', '=', '+', '$', '.', '!', '~', '*', '\'', '(', ')'] ||
    (isFull && c ∈ [',', '[', ']'])

/-- The bytes of a character that are owed after one of them, `owed` being owed before. -/
def owedAfter? (owed byte : Nat) : Option Nat :=
  if owed = 0 then
    if byte < 0x80 then some 0
    else if byte < 0xC0 then none
    else if byte < 0xE0 then some 1
    else if byte < 0xF0 then some 2
    else if byte < 0xF8 then some 3
    else none
  else if byte < 0x80 ∨ 0xC0 ≤ byte then none
  else some (owed - 1)

/-- The longest text of tag characters, and what follows. A byte may be given by two hexadecimal
digits behind a percent sign; it stands in the text as the character of that number. -/
def spell (isFull : Bool) (owed : Nat) : List Spot → Except Fault (List Char × List Spot)
  | [] => if owed = 0 then .ok ([], []) else .error .badTag
  | spot :: rest =>
    if spot.char = '%' then
      match rest with
      | high :: low :: rest =>
        match hexadecimalDigit? high.char, hexadecimalDigit? low.char with
        | some h, some l =>
          match owedAfter? owed (16 * h + l) with
          | some owed => do
            let (text, rest) ← spell isFull owed rest
            return (Char.ofNat (16 * h + l) :: text, rest)
          | none => .error .badTag
        | _, _ => .error .badTag
      | _ => .error .badTag
    else if owed ≠ 0 then .error .badTag
    else if isTagChar isFull spot.char then do
      let (text, rest) ← spell isFull 0 rest
      return (spot.char :: text, rest)
    else .ok ([], spot :: rest)

def spellHandle (spots : List Spot) : List Char × List Spot :=
  let name := ((spots.drop 1).takeWhile (isNameChar ·.char)).map Spot.char
  let rest := (spots.drop 1).dropWhile (isNameChar ·.char)
  if startsWithChar '!' rest then ('!' :: name ++ ['!'], rest.drop 1) else ('!' :: name, rest)

/-- A handle is a lone exclamation mark, or stands between two of them. -/
def isHandle (text : List Char) : Bool := text == ['!'] || (text.drop 1).getLast? == some '!'

/-- The tag in front and what follows it, which is a gap or, inside brackets, a comma. -/
def read (inFlow : Bool) (spots : List Spot) : Except Fault (Tag × List Spot) := do
  let (tag, rest) ←
    if startsWithChar '<' (spots.drop 1) then do
      let (suffix, rest) ← spell true 0 (spots.drop 2)
      if suffix.isEmpty || !startsWithChar '>' rest then throw .badTag
      pure (⟨[], suffix⟩, rest.drop 1)
    else do
      let (start, rest) := spellHandle spots
      let (suffix, rest) ← spell false 0 rest
      if (start.drop 1).getLast? == some '!' then
        if suffix.isEmpty then throw .badTag
        pure (⟨start, suffix⟩, rest)
      else
        let suffix := start.drop 1 ++ suffix
        pure (if suffix.isEmpty then ⟨[], ['!']⟩ else ⟨['!'], suffix⟩, rest)
  if isWordEnd rest || (inFlow && startsWithChar ',' rest) then return (tag, rest)
  else throw .badTag

def commonStart : List Char := "tag:yaml.org,2002:".toList

def commonHandles : List (List Char × List Char) :=
  [(['!'], ['!']), (['!', '!'], commonStart)]

def full? (tag : Tag) (handles : List (List Char × List Char)) : Option String :=
  if tag.handle.isEmpty then some (String.ofList tag.suffix)
  else ((handles ++ commonHandles).lookup tag.handle).map fun start =>
    String.ofList (start ++ tag.suffix)

def readDirective (spots : List Spot) : Except Fault (List Char × List Char × List Spot) := do
  let spots := spots.dropWhile (isGap ·.char)
  if !startsWithChar '!' spots then throw .badDirective
  let (handle, rest) := spellHandle spots
  if !isHandle handle || !rest.head?.any (isGap ·.char) then throw .badDirective
  let (start, rest) ← spell true 0 (rest.dropWhile (isGap ·.char))
  if start.isEmpty || !isWordEnd rest then throw .badDirective
  return (handle, start, rest)

end Tag

end ChatDispatch.Yaml
