/-!
Text in which each character knows its line and column, and why a text is not a document that can be
read. Line breaks of all kinds but the two separator characters of Unicode are one line feed each.
-/

namespace ChatDispatch.Yaml

inductive Fault where
  | forbiddenCharacter
  | strayCharacter (line column : Nat)
  | misplacedTab (line column : Nat)
  | misplacedEntry (line column : Nat)
  | missingColon (line column : Nat)
  | strayColon (line column : Nat)
  | unterminatedText
  | badEscape (line column : Nat)
  | badBlockHeader (line column : Nat)
  | badDirective
  | badName
  | unknownName
  | badTag
  | unfitForTag
  | unexpectedToken
  | furtherDocument
  | compoundKey
  | tooManyReferences
  | numberOutOfRange (text : String)
  | tooDeep
  deriving DecidableEq, Repr

def place (line column : Nat) : String :=
  " at line " ++ toString (line + 1) ++ " column " ++ toString (column + 1)

def Fault.message : Fault → String
  | forbiddenCharacter => "control characters are not allowed"
  | strayCharacter line column => "no token starts with this character" ++ place line column
  | misplacedTab line column => "a tab stands where the text is indented" ++ place line column
  | misplacedEntry line column => "no entry may stand here" ++ place line column
  | missingColon line column => "a key without a colon" ++ place line column
  | strayColon line column => "an unexpected colon" ++ place line column
  | unterminatedText => "a quoted text does not end"
  | badEscape line column => "an unknown escape" ++ place line column
  | badBlockHeader line column => "a block of text with a wrong header" ++ place line column
  | badDirective => "a directive that is not known"
  | badName => "a name that is not well formed"
  | unknownName => "a name that no node has"
  | badTag => "a tag that is not well formed"
  | unfitForTag => "a value that its tag does not allow"
  | unexpectedToken => "a token that does not fit in here"
  | furtherDocument => "more than one document"
  | compoundKey => "a key that is not a single text"
  | tooManyReferences => "more references than the document has room for"
  | numberOutOfRange text => "the number " ++ text ++ " is out of range"
  | tooDeep => "values are nested too deeply"

structure Spot where
  char : Char
  line : Nat
  column : Nat
  index : Nat
  deriving DecidableEq, Repr

def unifyBreaks : List Char → List Char
  | [] => []
  | '\r' :: '\n' :: rest => '\n' :: unifyBreaks rest
  | '\r' :: rest => '\n' :: unifyBreaks rest
  | '\u0085' :: rest => '\n' :: unifyBreaks rest
  | c :: rest => c :: unifyBreaks rest

def isBreak (c : Char) : Bool := c == '\n' || c == '\u2028' || c == '\u2029'

def isGap (c : Char) : Bool := c == ' ' || c == '\t'

def locateFrom (line column index : Nat) : List Char → List Spot
  | [] => []
  | c :: rest =>
    ⟨c, line, column, index⟩ ::
      if isBreak c then locateFrom (line + 1) 0 (index + 1) rest
      else locateFrom line (column + 1) (index + 1) rest

def locate (text : List Char) : List Spot := locateFrom 0 0 0 (unifyBreaks text)

/-- A byte order mark may start a line. It stands for nothing there and takes up a column. -/
def isOrderMark (spot : Spot) : Bool := spot.column == 0 && spot.char == '\ufeff'

def isAllowed (c : Char) : Bool :=
  let n := c.toNat
  n == 0x09 || n == 0x0A || n == 0x0D || (0x20 ≤ n && n ≤ 0x7E) || n == 0x85 ||
    (0xA0 ≤ n && n ≤ 0xD7FF) || (0xE000 ≤ n && n ≤ 0xFFFD) || 0x10000 ≤ n

def isWordEnd : List Spot → Bool
  | [] => true
  | spot :: _ => isGap spot.char || isBreak spot.char

def startsWithChar (c : Char) (spots : List Spot) : Bool :=
  spots.head?.any (·.char == c)

/-- A line that starts with three times the same mark, which stands alone. -/
def isMarker (c : Char) : List Spot → Bool
  | a :: b :: d :: rest =>
    a.column == 0 && a.char == c && b.char == c && d.char == c && isWordEnd rest
  | _ => false

def isDocumentMarker (spots : List Spot) : Bool :=
  isMarker '-' spots || isMarker '.' spots

end ChatDispatch.Yaml
