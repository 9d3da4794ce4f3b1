import ChatDispatch.Processor

/-!
A module of basic commands: help, echo, sums, repetition, and who is asking. A requirement bounds
the count of a repetition, so that no reply grows out of hand.
-/

namespace ChatDispatch.Demo

/-- A number at the position `index` has to lie between two bounds; an absent one passes. -/
structure Range where
  index : UInt64
  low : Int32
  high : Int32

def rangeType (home : String) : ValueType :=
  .record (home ++ "::demo::Range") (.pair .nat64 (.pair .int32 .int32))

def Range.requirement (home : String) (range : Range) : Value :=
  ⟨rangeType home, (range.index, range.low, range.high)⟩

def isBetween (low high n : Int32) : Bool :=
  decide (low.toInt ≤ n.toInt) && decide (n.toInt ≤ high.toInt)

def rangeValidator (home : String) : Validator where
  requirement := rangeType home
  check := fun (index, low, high) _ arguments =>
    match arguments.int32 index.toNat with
    | .error fault => ⟨.returned (.error fault.report), []⟩
    | .ok none => ⟨.returned (.ok true), []⟩
    | .ok (some n) => ⟨.returned (.ok (isBetween low high n)), []⟩

def sum? (a b : Int32) : Option Int32 :=
  let total := a.toInt + b.toInt
  if Text.Bounds.int32.contains total then some (Int32.ofInt total) else none

def repeated (count : Nat) (text : String) : String :=
  " ".intercalate (List.replicate count text)

def repetitions (count : Option Int32) : Nat :=
  max 1 ((count.getD 1).toInt.toNat)

open Program

def help (catalog : List String) (arguments : Arguments) : Program :=
  given (arguments.message 0) fun message =>
  given (arguments.client 1) fun client =>
  answer client message.peer ("Commands: " ++ ", ".intercalate catalog)

def echo (arguments : Arguments) : Program :=
  given (arguments.text 0) fun text =>
  given (arguments.message 1) fun message =>
  given (arguments.client 2) fun client =>
  answer client message.peer (text.getD "Nothing to echo")

def overflow (a b : Int32) : Cause :=
  ⟨Text.decimal a.toInt ++ " + " ++ Text.decimal b.toInt ++ " overflows a 32-bit integer", []⟩

def sum (arguments : Arguments) : Program :=
  given (arguments.int32 0) fun a =>
  given (arguments.int32 1) fun b =>
  match sum? (a.getD 0) (b.getD 0) with
  | none => .fail (overflow (a.getD 0) (b.getD 0))
  | some total =>
    given (arguments.message 2) fun message =>
    given (arguments.client 3) fun client =>
    answer client message.peer (Text.decimal total.toInt)

def repetition (arguments : Arguments) : Program :=
  given (arguments.int32 0) fun count =>
  given (arguments.text 1) fun text =>
  match text with
  | none => .done
  | some text =>
    given (arguments.message 2) fun message =>
    given (arguments.client 3) fun client =>
    answer client message.peer (repeated (repetitions count) text)

def whoami (arguments : Arguments) : Program :=
  given (arguments.message 0) fun message =>
  given (arguments.client 1) fun client =>
  answer client message.peer
    ("You are " ++ Text.decimal message.sender ++ " in " ++ Text.decimal message.peer)

def method (name : String) (parameters : List Parameter) (body : Arguments → Program) :
    Method Program :=
  { name, command := some name, parameters := parameters ++ [.message, .client], body }

/-- The methods of the module, `catalog` being what help lists. -/
def methods (home : String) (catalog : List String) : List (Method Program) :=
  [ method "help" [] (help catalog),
    method "echo" [.remaining "text"] echo,
    method "sum" [.converted "a" .int32, .converted "b" .int32] sum,
    method "repeat"
      [(Parameter.converted "count" (.optional .int32)).required
          (Range.requirement home ⟨0, 1, 10⟩),
        .remaining "text"] repetition,
    method "whoami" [] whoami ]

def catalog : List String :=
  ((methods "" []).filterMap Method.command).mergeSort fun a b => !decide (b < a)

def basics (home : String) : Module Program where
  owner := home ++ "::demo::Basics"
  methods := methods home catalog

def register (home : String) : Action (Except Fault (List String)) := do
  Processor.addValidator (rangeValidator home)
  Processor.scan (basics home)

end ChatDispatch.Demo
