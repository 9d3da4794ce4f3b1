/-!
Whole numbers in positional notation, read within bounds. An optional sign comes first; `-` counts
as a sign only where negative numbers are in range. Digits are read from the left and the first
digit that is not one, or that leaves the range, is the one reported.
-/

namespace ChatDispatch.Text

inductive NumeralFault where
  | missing
  | notADigit
  | tooLarge
  | tooSmall
  deriving DecidableEq, Repr

def NumeralFault.message : NumeralFault → String
  | missing => "cannot parse integer from empty string"
  | notADigit => "invalid digit found in string"
  | tooLarge => "number too large to fit in target type"
  | tooSmall => "number too small to fit in target type"

structure Bounds where
  low : Int
  high : Int
  deriving DecidableEq, Repr

namespace Bounds

def int32 : Bounds := ⟨-0x80000000, 0x7FFFFFFF⟩
def int64 : Bounds := ⟨-0x8000000000000000, 0x7FFFFFFFFFFFFFFF⟩
def nat64 : Bounds := ⟨0, 0xFFFFFFFFFFFFFFFF⟩

def contains (b : Bounds) (n : Int) : Bool := b.low ≤ n && n ≤ b.high

end Bounds

def digitValue? (radix : Nat) (c : Char) : Option Nat :=
  let value :=
    if '0' ≤ c && c ≤ '9' then some (c.toNat - '0'.toNat)
    else if 'a' ≤ c && c ≤ 'z' then some (c.toNat - 'a'.toNat + 10)
    else if 'A' ≤ c && c ≤ 'Z' then some (c.toNat - 'A'.toNat + 10)
    else none
  value.filter (· < radix)

/-- Read digits behind `value`, which may grow up to `limit`. -/
def readDigits (radix limit : Nat) (overflow : NumeralFault) (value : Nat) :
    List Char → Except NumeralFault Nat
  | [] => .ok value
  | c :: rest =>
    match digitValue? radix c with
    | none => .error .notADigit
    | some digit =>
      let next := value * radix + digit
      if next ≤ limit then readDigits radix limit overflow next rest else .error overflow

def readNumeral (radix : Nat) (bounds : Bounds) : List Char → Except NumeralFault Int
  | [] => .error .missing
  | [c] => (readDigits radix bounds.high.toNat .tooLarge 0 [c]).map Int.ofNat
  | '+' :: rest => (readDigits radix bounds.high.toNat .tooLarge 0 rest).map Int.ofNat
  | c :: rest =>
    if c = '-' ∧ bounds.low < 0 then
      (readDigits radix (-bounds.low).toNat .tooSmall 0 rest).map fun n => -Int.ofNat n
    else (readDigits radix bounds.high.toNat .tooLarge 0 (c :: rest)).map Int.ofNat

def decimal (n : Int) : String := toString n

end ChatDispatch.Text
