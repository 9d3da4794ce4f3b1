import ChatDispatch.Yaml.Located

/-!
Plain and quoted texts. Both may go over several lines: a single line break counts as a space, and
of several the first is dropped.
-/

namespace ChatDispatch.Yaml

/-- The gap behind the last word: on one line, or over line breaks. In a quoted text the first of
the line breaks may be escaped, which makes it nothing. -/
inductive Gap where
  | inline (blanks : List Char)
  | lines (first : Option Char) (more : List Char)

namespace Gap

def none : Gap := .inline []

def text : Gap → List Char
  | inline blanks => blanks
  | lines Option.none more => more
  | lines (some first) more =>
    if first = '\n' then (if more.isEmpty then [' '] else more) else first :: more

def addBlank (c : Char) : Gap → Gap
  | inline blanks => inline (blanks ++ [c])
  | lines first more => lines first more

def addBreak (c : Char) : Gap → Gap
  | inline _ => lines (some c) []
  | lines first more => lines first (more ++ [c])

def isOverLines : Gap → Bool
  | inline _ => false
  | lines _ _ => true

def isEmpty : Gap → Bool
  | inline blanks => blanks.isEmpty
  | lines _ _ => false

end Gap

structure Reading where
  text : List Char
  endsLine : Bool
  rest : List Spot

def isFlowMark (c : Char) : Bool := c ∈ [',', '[', ']', '{', '}']

/-- Behind a colon inside brackets these are refused. -/
def isColonTrap (c : Char) : Bool := isFlowMark c || c == '?'

def endsBeforeWord (inFlow : Bool) (indent : Nat) (gap : Gap) (spots : List Spot) : Bool :=
  match spots with
  | [] => true
  | spot :: _ =>
    !gap.isEmpty &&
      (isDocumentMarker spots || spot.char == '#' ||
        (gap.isOverLines && !inFlow && decide (spot.column < indent)))

/-- Read on in a plain text; `text` is reversed, and `indent` is the least column of its further
lines. -/
def plainFrom (inFlow : Bool) (indent : Nat) (text : List Char) (gap : Gap) :
    List Spot → Except Fault Reading
  | [] => .ok ⟨text.reverse, gap.isOverLines, []⟩
  | spot :: rest =>
    let c := spot.char
    if isGap c then
      if gap.isOverLines && c == '\t' && decide (spot.column < indent) then
        .error (.misplacedTab spot.line spot.column)
      else plainFrom inFlow indent text (gap.addBlank c) rest
    else if isBreak c then plainFrom inFlow indent text (gap.addBreak c) rest
    else if endsBeforeWord inFlow indent gap (spot :: rest) then
      .ok ⟨text.reverse, gap.isOverLines, spot :: rest⟩
    else if inFlow && c == ':' && rest.head?.any (fun next => isColonTrap next.char) then
      .error (.strayColon spot.line spot.column)
    else if (c == ':' && isWordEnd rest) || (inFlow && isFlowMark c) then
      .ok ⟨text.reverse, gap.isOverLines, spot :: rest⟩
    else plainFrom inFlow indent (c :: gap.text.reverse ++ text) Gap.none rest

def plain (inFlow : Bool) (indent : Nat) (spots : List Spot) : Except Fault Reading :=
  plainFrom inFlow indent [] Gap.none spots

def escape? : Char → Option Char
  | '0' => some '\x00'
  | 'a' => some '\x07'
  | 'b' => some '\x08'
  | 't' => some '\t'
  | '\t' => some '\t'
  | 'n' => some '\n'
  | 'v' => some '\x0b'
  | 'f' => some '\x0c'
  | 'r' => some '\r'
  | 'e' => some '\x1b'
  | ' ' => some ' '
  | '"' => some '"'
  | '/' => some '/'
  | '\\' => some '\\'
  | 'N' => some '\u0085'
  | '_' => some '\u00a0'
  | 'L' => some '\u2028'
  | 'P' => some '\u2029'
  | _ => none

def escapeDigits? : Char → Option Nat
  | 'x' => some 2
  | 'u' => some 4
  | 'U' => some 8
  | _ => none

def hexadecimalDigit? (c : Char) : Option Nat :=
  if '0' ≤ c && c ≤ '9' then some (c.toNat - '0'.toNat)
  else if 'a' ≤ c && c ≤ 'f' then some (c.toNat - 'a'.toNat + 10)
  else if 'A' ≤ c && c ≤ 'F' then some (c.toNat - 'A'.toNat + 10)
  else none

/-- Where a reader of quoted text stands: between characters, behind a backslash, in a numeric
escape of which some digits are owed, or behind a single quote that may be the first of two. -/
inductive QuotedState where
  | between
  | escape
  | number (owed value : Nat)
  | quote

def doubleQuotedFrom (text : List Char) (gap : Gap) : QuotedState → List Spot →
    Except Fault Reading
  | _, [] => .error .unterminatedText
  | .escape, spot :: rest =>
    let c := spot.char
    if isBreak c then doubleQuotedFrom text (.lines none []) .between rest
    else match escape? c, escapeDigits? c with
      | some meant, _ => doubleQuotedFrom (meant :: text) Gap.none .between rest
      | none, some count => doubleQuotedFrom text Gap.none (.number count 0) rest
      | none, none => .error (.badEscape spot.line spot.column)
  | .number owed value, spot :: rest =>
    match hexadecimalDigit? spot.char with
    | none => .error (.badEscape spot.line spot.column)
    | some digit =>
      let value := value * 16 + digit
      if 1 < owed then doubleQuotedFrom text Gap.none (.number (owed - 1) value) rest
      else if value.isValidChar then
        doubleQuotedFrom (Char.ofNat value :: text) Gap.none .between rest
      else .error (.badEscape spot.line spot.column)
  | _, spot :: rest =>
    let c := spot.char
    if isGap c then doubleQuotedFrom text (gap.addBlank c) .between rest
    else if isBreak c then doubleQuotedFrom text (gap.addBreak c) .between rest
    else if isDocumentMarker (spot :: rest) then .error .unterminatedText
    else
      let text := gap.text.reverse ++ text
      if c == '"' then .ok ⟨text.reverse, false, rest⟩
      else if c == '\\' then doubleQuotedFrom text Gap.none .escape rest
      else doubleQuotedFrom (c :: text) Gap.none .between rest

def singleQuotedFrom (text : List Char) (gap : Gap) : QuotedState → List Spot →
    Except Fault Reading
  | .quote, [] => .ok ⟨text.reverse, false, []⟩
  | _, [] => .error .unterminatedText
  | .quote, spot :: rest =>
    if spot.char == '\'' then singleQuotedFrom ('\'' :: text) Gap.none .between rest
    else .ok ⟨text.reverse, false, spot :: rest⟩
  | _, spot :: rest =>
    let c := spot.char
    if isGap c then singleQuotedFrom text (gap.addBlank c) .between rest
    else if isBreak c then singleQuotedFrom text (gap.addBreak c) .between rest
    else if isDocumentMarker (spot :: rest) then .error .unterminatedText
    else
      let text := gap.text.reverse ++ text
      if c == '\'' then singleQuotedFrom text Gap.none .quote rest
      else singleQuotedFrom (c :: text) Gap.none .between rest

def quoted (isDouble : Bool) (spots : List Spot) : Except Fault Reading :=
  if isDouble then doubleQuotedFrom [] Gap.none .between spots
  else singleQuotedFrom [] Gap.none .between spots

end ChatDispatch.Yaml
