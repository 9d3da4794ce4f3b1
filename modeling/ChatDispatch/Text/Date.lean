import ChatDispatch.Text.Basic

/-!
Instants of time and their RFC 3339 text. Reading is lenient about blanks and the separator of the
two halves; what is read is moved to UTC and written back with a `Z`.
-/

namespace ChatDispatch.Text

/-- Seconds since the start of 1970 in UTC, and nanoseconds. A leap second is written as the
second before it with a thousand million nanoseconds or more. -/
structure Instant where
  seconds : Int
  nanoseconds : Nat
  deriving DecidableEq, Repr, Inhabited

inductive DateFault where
  | outOfRange
  | invalid
  | tooShort
  | tooLong
  | impossible
  deriving DecidableEq, Repr

def DateFault.message : DateFault → String
  | outOfRange => "input is out of range"
  | invalid => "input contains invalid characters"
  | tooShort => "premature end of input"
  | tooLong => "trailing input"
  | impossible => "no possible date and time matching input"

namespace Instant

def epoch : Instant := ⟨0, 0⟩

def isLeapYear (year : Int) : Bool :=
  year % 4 == 0 && (year % 100 != 0 || year % 400 == 0)

def daysInMonth (year : Int) (month : Nat) : Nat :=
  if month = 2 then (if isLeapYear year then 29 else 28)
  else if month = 4 ∨ month = 6 ∨ month = 9 ∨ month = 11 then 30
  else 31

/-- Days from the start of 1970 to a date, counted in years that begin with March. -/
def dayNumber (year : Int) (month day : Nat) : Int :=
  let y := if month ≤ 2 then year - 1 else year
  let shifted : Int := if month ≤ 2 then month + 9 else month - 3
  365 * y + y.fdiv 4 - y.fdiv 100 + y.fdiv 400 + (153 * shifted + 2) / 5 + day - 719469

def dateOfDay (days : Int) : Int × Nat × Nat :=
  let z := days + 719468
  let era := z.fdiv 146097
  let dayOfEra := (z - era * 146097).toNat
  let yearOfEra :=
    (dayOfEra - dayOfEra / 1460 + dayOfEra / 36524 - dayOfEra / 146096) / 365
  let dayOfYear := dayOfEra - (365 * yearOfEra + yearOfEra / 4 - yearOfEra / 100)
  let shifted := (5 * dayOfYear + 2) / 153
  let day := dayOfYear - (153 * shifted + 2) / 5 + 1
  let month := if shifted < 10 then shifted + 3 else shifted - 9
  let year := (yearOfEra : Int) + era * 400 + (if month ≤ 2 then 1 else 0)
  (year, month, day)

def padded (width n : Nat) : List Char :=
  let digits := Nat.toDigits 10 n
  List.replicate (width - digits.length) '0' ++ digits

/-- The fraction of a second in as few groups of three digits as hold it. -/
def fractionText (nanoseconds : Nat) : List Char :=
  if nanoseconds = 0 then []
  else if nanoseconds % 1000000 = 0 then '.' :: padded 3 (nanoseconds / 1000000)
  else if nanoseconds % 1000 = 0 then '.' :: padded 6 (nanoseconds / 1000)
  else '.' :: padded 9 nanoseconds

def yearText (year : Int) : List Char :=
  if 0 ≤ year ∧ year ≤ 9999 then padded 4 year.toNat
  else (if year < 0 then '-' else '+') :: padded 4 year.natAbs

def text (t : Instant) : String :=
  let (year, month, day) := dateOfDay (t.seconds.fdiv 86400)
  let ofDay := (t.seconds.fmod 86400).toNat
  let leap := 1000000000 ≤ t.nanoseconds
  let second := ofDay % 60 + (if leap then 1 else 0)
  let fraction := if leap then t.nanoseconds - 1000000000 else t.nanoseconds
  String.ofList (yearText year ++ '-' :: padded 2 month ++ '-' :: padded 2 day ++
    'T' :: padded 2 (ofDay / 3600) ++ ':' :: padded 2 (ofDay / 60 % 60) ++
    ':' :: padded 2 second ++ fractionText fraction ++ ['Z'])

def digits (width : Nat) (text : List Char) : Except DateFault (Nat × List Char) :=
  let found := (text.take width).takeWhile Char.isDigit
  match text, found with
  | [], _ => .error .tooShort
  | _, [] => .error .invalid
  | _, _ => .ok (found.foldl (fun n c => 10 * n + (c.toNat - '0'.toNat)) 0, text.drop found.length)

/-- A number of a date: blanks, then at most two digits, within a range. -/
def part (low high : Nat) (text : List Char) : Except DateFault (Nat × List Char) := do
  let (n, rest) ← digits 2 (dropBlanks text)
  if low ≤ n ∧ n ≤ high then .ok (n, rest) else .error .outOfRange

def mark (c : Char) (text : List Char) : Except DateFault (List Char) :=
  match dropBlanks text with
  | [] => .error .tooShort
  | d :: rest => if d = c then .ok rest else .error .invalid

/-- The year: four digits, or a sign and any number of them. -/
def readYear (text : List Char) : Except DateFault (Int × List Char) := do
  let text := dropBlanks text
  let bounded (n : Int) (rest : List Char) : Except DateFault (Int × List Char) :=
    if -0x80000000 ≤ n ∧ n ≤ 0x7FFFFFFF then .ok (n, rest) else .error .outOfRange
  match text with
  | '-' :: rest =>
    let (n, rest) ← digits rest.length rest
    bounded (-n) rest
  | '+' :: rest =>
    let (n, rest) ← digits rest.length rest
    bounded n rest
  | _ =>
    let (n, rest) ← digits 4 text
    bounded n rest

/-- The fraction of a second; digits after the ninth are dropped. -/
def readFraction (text : List Char) : Except DateFault (Nat × List Char) :=
  match text with
  | '.' :: rest => do
    let (n, after) ← digits 9 rest
    .ok (n * Nat.pow 10 (9 - (rest.length - after.length)), after.dropWhile Char.isDigit)
  | _ => .ok (0, text)

/-- Two digits in front, with what follows them; a text of fewer than two bytes is cut short. -/
def twoDigits (text : List Char) : Except DateFault (Char × Char × List Char) :=
  match text with
  | c :: d :: rest => if c.isDigit ∧ d.isDigit then .ok (c, d, rest) else .error .invalid
  | [c] => if c.utf8Size = 1 then .error .tooShort else .error .invalid
  | [] => .error .tooShort

def twoDigitValue (c d : Char) : Nat := 10 * (c.toNat - '0'.toNat) + (d.toNat - '0'.toNat)

def readOffset (text : List Char) : Except DateFault (Int × List Char) := do
  let after (sign : Int) (text : List Char) : Except DateFault (Int × List Char) := do
    let (h, i, rest) ← twoDigits text
    let (m, n, rest) ← twoDigits (rest.dropWhile fun c => c == ':' || isBlank c)
    if m < '6' then .ok (sign * (twoDigitValue h i * 3600 + twoDigitValue m n * 60 : Nat), rest)
    else .error .outOfRange
  match text with
  | [] => .error .tooShort
  | c :: rest =>
    if c = 'Z' ∨ c = 'z' then .ok (0, rest)
    else if text.take 3 |>.map Char.toUpper |> (· == ['U', 'T', 'C']) then .ok (0, text.drop 3)
    else if c = '+' then after 1 rest
    else if c = '-' ∨ c = '\u2212' then after (-1) rest
    else .error .invalid

def firstYear : Int := -262143
def lastYear : Int := 262142

def parse (text : List Char) : Except DateFault Instant := do
  let (year, rest) ← readYear text
  let rest ← mark '-' rest
  let (month, rest) ← part 1 12 rest
  let rest ← mark '-' rest
  let (day, rest) ← part 1 31 rest
  let rest ← match rest with
    | [] => .error .tooShort
    | c :: rest => if c = 't' ∨ c = 'T' ∨ c = ' ' then .ok rest else .error .invalid
  let (hour, rest) ← part 0 23 rest
  let rest ← mark ':' rest
  let (minute, rest) ← part 0 59 rest
  let rest ← mark ':' rest
  let (second, rest) ← part 0 60 rest
  let (fraction, rest) ← readFraction rest
  let (offset, rest) ← readOffset (dropBlanks rest)
  if !isBlankText rest then .error .tooLong
  else if year < firstYear ∨ lastYear < year ∨ daysInMonth year month < day ∨
      86400 ≤ offset.natAbs then
    .error .outOfRange
  else
    let leap := second = 60
    let second := if leap then 59 else second
    let seconds := dayNumber year month day * 86400 +
      (hour * 3600 + minute * 60 + second : Nat) - offset
    let today := seconds.fdiv 86400
    if today < dayNumber firstYear 1 1 ∨ dayNumber lastYear 12 31 < today then .error .impossible
    else .ok ⟨seconds, if leap then fraction + 1000000000 else fraction⟩

end Instant

end ChatDispatch.Text
