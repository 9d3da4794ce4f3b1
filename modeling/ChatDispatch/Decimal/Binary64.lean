/-!
Binary floating point numbers of 64 bits as exact values `m · 2^q`, and the step from a decimal
`d · 10^e` to the nearest of them, a tie going to the even one. The values that no finite number
is near to are reported as too large. `scaled?` takes the same step in parts that are rounded one
by one, as a reader of long texts does that keeps only 64 bits of the digits.

Back from a binary number goes `shortest`: the shortest decimal that reads back as the number, and
of those the nearest to it. For each count of digits the two neighbours on that decimal grid are
tried; the first count with a hit wins.
-/

namespace ChatDispatch.Decimal

/-- The number `significand · 2^exponent`, with its sign kept apart so that zero has one too. -/
structure Binary64 where
  negative : Bool
  significand : Nat
  exponent : Int
  deriving DecidableEq, Repr

def significandBits : Nat := 53
def leastExponent : Int := -1074
def greatestExponent : Int := 971

/-- The quotient rounded to the nearest whole number, ties to even. -/
def roundQuotient (numerator denominator : Nat) : Nat :=
  let quotient := numerator / denominator
  let twice := 2 * (numerator % denominator)
  if twice < denominator then quotient
  else if denominator < twice then quotient + 1
  else quotient + quotient % 2

def bitLength (n : Nat) : Nat := if n = 0 then 0 else Nat.log2 n + 1

/-- The fraction `numerator / denominator` on the grid of step `2^exponent`. -/
def onGrid (numerator denominator : Nat) (exponent : Int) : Nat :=
  if 0 ≤ exponent then roundQuotient numerator (denominator * Nat.pow 2 exponent.toNat)
  else roundQuotient (numerator * Nat.pow 2 (-exponent).toNat) denominator

/-- The nearest binary number to a fraction, `none` if that is beyond the largest. -/
def nearest? (negative : Bool) (numerator denominator : Nat) : Option Binary64 :=
  if numerator = 0 then some ⟨negative, 0, 0⟩
  else
    let size : Int := bitLength numerator - bitLength denominator
    let first := max leastExponent (size - significandBits)
    let significand := onGrid numerator denominator first
    let exponent := if Nat.pow 2 significandBits ≤ significand then first + 1 else first
    let significand := onGrid numerator denominator exponent
    let (significand, exponent) :=
      if significand = Nat.pow 2 significandBits then
        (Nat.pow 2 (significandBits - 1), exponent + 1)
      else (significand, exponent)
    if greatestExponent < exponent then none
    else some ⟨negative, significand, if significand = 0 then 0 else exponent⟩

def ofDecimal? (negative : Bool) (digits : Nat) (scale : Int) : Option Binary64 :=
  if digits = 0 then some ⟨negative, 0, 0⟩
  else if 400 < scale then none
  else if scale + (Nat.toDigits 10 digits).length < -400 then some ⟨negative, 0, 0⟩
  else if 0 ≤ scale then nearest? negative (digits * Nat.pow 10 scale.toNat) 1
  else nearest? negative digits (Nat.pow 10 (-scale).toNat)

def Binary64.fraction (x : Binary64) : Nat × Nat :=
  if 0 ≤ x.exponent then (x.significand * Nat.pow 2 x.exponent.toNat, 1)
  else (x.significand, Nat.pow 2 (-x.exponent).toNat)

def Binary64.times? (x y : Binary64) : Option Binary64 :=
  let (n, d) := x.fraction
  let (k, e) := y.fraction
  nearest? (x.negative != y.negative) (n * k) (d * e)

def Binary64.over? (x y : Binary64) : Option Binary64 :=
  let (n, d) := x.fraction
  let (k, e) := y.fraction
  if k = 0 then none else nearest? (x.negative != y.negative) (n * e) (d * k)

def greatestPower : Nat := 308

def power? (k : Nat) : Option Binary64 := nearest? false (Nat.pow 10 k) 1

/-- Divide by a power of ten, in steps of the greatest power; no number of 64 bits outlives three of
them. -/
def dividedBy? : Nat → Nat → Binary64 → Option Binary64
  | 0, _, x => some ⟨x.negative, 0, 0⟩
  | steps + 1, k, x =>
    if x.significand = 0 then some x
    else if k ≤ greatestPower then (power? k).bind x.over?
    else ((power? greatestPower).bind x.over?).bind (dividedBy? steps (k - greatestPower))

/-- `digits · 10^scale`, with `digits`, the power of ten and what comes of both each rounded. -/
def scaled? (negative : Bool) (digits : Nat) (scale : Int) : Option Binary64 :=
  (nearest? negative digits 1).bind fun x =>
    if scale < 0 then dividedBy? 4 (-scale).toNat x
    else if x.significand = 0 then some x
    else if (greatestPower : Int) < scale then none
    else (power? scale.toNat).bind x.times?

structure Scaled where
  digits : Nat
  scale : Int
  deriving DecidableEq, Repr

/-- The power of ten just below or at a positive fraction: `10^k ≤ n/d < 10^(k+1)`. -/
def magnitude (numerator denominator : Nat) : Int :=
  let above (k : Int) : Bool :=
    if 0 ≤ k then denominator * Nat.pow 10 k.toNat ≤ numerator
    else denominator ≤ numerator * Nat.pow 10 (-k).toNat
  let guess : Int :=
    (Nat.toDigits 10 numerator).length - (Nat.toDigits 10 denominator).length
  if above guess then guess else guess - 1

def floorAt (numerator denominator : Nat) (scale : Int) : Nat :=
  if 0 ≤ scale then numerator / (denominator * Nat.pow 10 scale.toNat)
  else numerator * Nat.pow 10 (-scale).toNat / denominator

/-- The distance of a grid point from the fraction, as a multiple of one common unit. -/
def distance (numerator denominator digits : Nat) (scale : Int) : Nat :=
  let (point, value) :=
    if 0 ≤ scale then (digits * denominator * Nat.pow 10 scale.toNat, numerator)
    else (digits * denominator, numerator * Nat.pow 10 (-scale).toNat)
  if point ≤ value then value - point else point - value

/-- The better neighbour of `x` on the grid of step `10^scale`, if one reads back as `x`. -/
def hit? (x : Binary64) (scale : Int) : Option Scaled :=
  let (numerator, denominator) := x.fraction
  let below := floorAt numerator denominator scale
  let readsBack (digits : Nat) : Bool :=
    digits ≠ 0 && ofDecimal? x.negative digits scale == some x
  match readsBack below, readsBack (below + 1) with
  | true, true =>
    let down := distance numerator denominator below scale
    let up := distance numerator denominator (below + 1) scale
    if down < up ∨ (down = up ∧ below % 2 = 0) then some ⟨below, scale⟩
    else some ⟨below + 1, scale⟩
  | true, false => some ⟨below, scale⟩
  | false, true => some ⟨below + 1, scale⟩
  | false, false => none

def searchFrom (x : Binary64) (top : Int) : Nat → Nat → Option Scaled
  | _, 0 => none
  | count, more + 1 =>
    match hit? x (top - count) with
    | some s => some s
    | none => searchFrom x top (count + 1) more

/-- The shortest digits of `x`; zero has the one digit `0`. -/
def shortest (x : Binary64) : Scaled :=
  if x.significand = 0 then ⟨0, 0⟩
  else
    let (numerator, denominator) := x.fraction
    (searchFrom x (magnitude numerator denominator) 0 18).getD ⟨0, 0⟩

def Scaled.trimmed : Nat → Scaled → Scaled
  | 0, s => s
  | fuel + 1, s =>
    if s.digits ≠ 0 ∧ s.digits % 10 = 0 then trimmed fuel ⟨s.digits / 10, s.scale + 1⟩ else s

/-- Text of a number: positional from `10^-5` up to below `10^16`, else with an exponent that has
its sign; a whole number keeps one zero behind the point. -/
def Binary64.text (x : Binary64) : String :=
  let sign := if x.negative then "-" else ""
  if x.significand = 0 then sign ++ "0.0"
  else
    let s := (shortest x).trimmed 20
    let digits := Nat.toDigits 10 s.digits
    let point : Int := digits.length + s.scale
    let body :=
      if 0 ≤ s.scale ∧ point ≤ 16 then
        digits ++ List.replicate s.scale.toNat '0' ++ ['.', '0']
      else if 0 < point ∧ point ≤ 16 then
        digits.take point.toNat ++ '.' :: digits.drop point.toNat
      else if -5 < point ∧ point ≤ 0 then
        '0' :: '.' :: List.replicate (-point).toNat '0' ++ digits
      else
        let power := (if 0 < point then "+" else "").toList ++ (toString (point - 1)).toList
        match digits with
        | [d] => d :: 'e' :: power
        | d :: more => d :: '.' :: more ++ 'e' :: power
        | [] => []
    sign ++ String.ofList body

end ChatDispatch.Decimal
