import ChatDispatch.Json.Basic
import ChatDispatch.Text.Basic
import ChatDispatch.Text.Numeral
import ChatDispatch.Yaml.Tag

/-!
What plain texts stand for: nothing, a boolean, a whole number, a number, or themselves. A tag says
which of these a text has to be.
-/

namespace ChatDispatch.Yaml

open Text

def nullTexts : List String := ["", "~", "null", "Null", "NULL"]
def trueTexts : List String := ["true", "True", "TRUE"]
def falseTexts : List String := ["false", "False", "FALSE"]

/-- Numbers that no value tree can hold. -/
def unboundedTexts : List String :=
  [".inf", ".Inf", ".INF", "+.inf", "+.Inf", "+.INF", "-.inf", "-.Inf", "-.INF",
    ".nan", ".NaN", ".NAN"]

/-- The sign of a number: whether there is one, whether it is a minus, and what follows. -/
def splitSign : List Char → Bool × Bool × List Char
  | '+' :: rest => (true, false, rest)
  | '-' :: rest => (true, true, rest)
  | text => (false, false, text)

/-- Digits behind a leading zero, which make a text and not a number. -/
def isPaddedNumber (digits : List Char) : Bool :=
  match digits with
  | '0' :: rest => !rest.isEmpty && rest.all Char.isDigit
  | _ => false

def radixDigits (text : List Char) : Nat × List Char :=
  match text with
  | '0' :: 'x' :: rest => (16, rest)
  | '0' :: 'o' :: rest => (8, rest)
  | '0' :: 'b' :: rest => (2, rest)
  | text => (10, text)

def digitsValue? (radix : Nat) (digits : List Char) : Option Nat :=
  if digits.isEmpty then none
  else digits.foldlM (fun n c => (digitValue? radix c).map (n * radix + ·)) 0

def whole? (text : List Char) : Option Int :=
  let (_, isNegative, unsigned) := splitSign text
  if isPaddedNumber unsigned then none
  else
    let (radix, digits) := radixDigits unsigned
    (digitsValue? radix digits).map fun n => if isNegative then -Int.ofNat n else Int.ofNat n

def wideBounds : Bounds :=
  ⟨-0x80000000000000000000000000000000, 0xFFFFFFFFFFFFFFFFFFFFFFFFFFFFFFFF⟩

def exponent? : List Char → Option Int
  | [] => some 0
  | c :: rest =>
    if c = 'e' ∨ c = 'E' then
      let (_, isNegative, digits) := splitSign rest
      if digits.all Char.isDigit then
        (digitsValue? 10 digits).map fun n => if isNegative then -Int.ofNat n else Int.ofNat n
      else none
    else none

/-- A decimal number, which may lack the digits before its point or those behind it. -/
def real? (text : List Char) : Option Decimal.Binary64 :=
  let (_, isNegative, unsigned) := splitSign text
  let before := unsigned.takeWhile Char.isDigit
  let behind := unsigned.dropWhile Char.isDigit
  let (after, behind) := match behind with
    | '.' :: rest => (rest.takeWhile Char.isDigit, rest.dropWhile Char.isDigit)
    | rest => ([], rest)
  do
    let digits ← digitsValue? 10 (before ++ after)
    let exponent ← exponent? behind
    Decimal.ofDecimal? isNegative digits (exponent - after.length)

def flagValue? (text : String) : Option Json :=
  if trueTexts.contains text then some (.bool true)
  else if falseTexts.contains text then some (.bool false)
  else none

def wholeValue? (text : String) : Except Fault (Option Json) :=
  match (whole? text.toList).filter wideBounds.contains with
  | some n =>
    if Bounds.int64.contains n || Bounds.nat64.contains n then .ok (some (.int n))
    else .error (.numberOutOfRange text)
  | none => .ok none

/-- The number that a text stands for, which is nothing where it is not a finite one. -/
def realValue? (text : String) : Option Json :=
  if unboundedTexts.contains text then some .null else (real? text.toList).map .real

def plainValue (text : String) : Except Fault Json := do
  if nullTexts.contains text then return .null
  if let some value := flagValue? text then return value
  if let some value ← wholeValue? text then return value
  let (_, _, unsigned) := splitSign text.toList
  if isPaddedNumber unsigned then return .text text
  return (realValue? text).getD (.text text)

/-- A tag for kinds of the document's own, of which no value tree has any. -/
def isOwnKind (tag : String) : Bool := tag.startsWith "!"

/-- The value of a text under a tag; tags that are not known leave it as it is. -/
def taggedValue (tag text : String) : Except Fault Json := do
  let fitting (value? : Option Json) : Except Fault Json :=
    match value? with
    | some value => .ok value
    | none => .error .unfitForTag
  if isOwnKind tag then throw .unfitForTag
  match (dropStart? Tag.commonStart tag.toList).map String.ofList with
  | some "bool" => fitting (flagValue? text)
  | some "int" => fitting (← wholeValue? text)
  | some "float" => fitting (realValue? text)
  | some "null" => fitting (if text ≠ "" ∧ nullTexts.contains text then some .null else none)
  | _ => return .text text

end ChatDispatch.Yaml
