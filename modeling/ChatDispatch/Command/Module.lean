import ChatDispatch.Fault
import ChatDispatch.Message.Basic
import ChatDispatch.Text.Numeral
import ChatDispatch.Text.Quoted
import ChatDispatch.Value

/-!
What a command is declared with and called with. The arguments of a call stand in the order of the
parameters; asking for the wrong position or type gives a fault and never anything else. A signature
has exactly one message, exactly one client, and at most one parameter for all remaining words. A
method that carries a command name can be registered; before each call the factory of its module
builds a fresh instance, so nothing of an instance outlives a call.
-/

namespace ChatDispatch

/-- A client takes a reply to a conversation, or refuses it with a report. One that `announces`
logs each reply before it sends it. -/
structure Client where
  name : String
  refuses : Int → String → Option Cause := fun _ _ => none
  announces : Bool := false

namespace Client

def memory : Client := { name := "memory" }

def console : Client := { name := "console", announces := true }

end Client

/-- One positional argument; a word that is not there leaves its parameter absent. -/
inductive Argument where
  | message (message : Message)
  | client (client : Client)
  | value (value : Value)
  | absent

namespace Argument

def isAbsent : Argument → Bool
  | absent => true
  | _ => false

def shown : Argument → String
  | message m => "Message(" ++ Text.decimal m.id ++ ")"
  | client c => "Client(" ++ Text.quoted c.name ++ ")"
  | value v =>
    match v.as? .text with
    | some s => "Value(" ++ Text.quoted s ++ ")"
    | none => "Value(..)"
  | absent => "Absent"

end Argument

structure Arguments where
  values : List Argument

namespace Arguments

def size (arguments : Arguments) : Nat := arguments.values.length

def isEmpty (arguments : Arguments) : Bool := arguments.values.isEmpty

def get? (arguments : Arguments) (index : Nat) : Option Argument := arguments.values[index]?

def isAbsent (arguments : Arguments) (index : Nat) : Bool :=
  (arguments.get? index).any Argument.isAbsent

def message (arguments : Arguments) (index : Nat) : Except Fault Message :=
  match arguments.get? index with
  | some (.message m) => .ok m
  | _ => .error (.argumentMismatch index .message)

def client (arguments : Arguments) (index : Nat) : Except Fault Client :=
  match arguments.get? index with
  | some (.client c) => .ok c
  | _ => .error (.argumentMismatch index .client)

/-- A converted value, `none` if it is absent. One declared at an optional type can be read at that
type or, flattened, at the inner one. -/
def value (arguments : Arguments) (type : ValueType) (index : Nat) :
    Except Fault (Option type.Carrier) :=
  let mismatch := .error (.argumentMismatch index (.value type))
  match arguments.get? index with
  | some .absent => .ok none
  | some (.value v) =>
    match v.flatten? type with
    | some content => .ok content
    | none => mismatch
  | _ => mismatch

def text (arguments : Arguments) (index : Nat) : Except Fault (Option String) :=
  arguments.value .text index

def int32 (arguments : Arguments) (index : Nat) : Except Fault (Option Int32) :=
  arguments.value .int32 index

def shown (arguments : Arguments) : String :=
  "Arguments " ++
    Text.braced (" values: [" ++ ", ".intercalate (arguments.values.map Argument.shown) ++ "] ")

end Arguments

/-- Where the argument of a parameter comes from: the message, the client, all words that are left,
or one word converted to a type. -/
inductive ParameterKind where
  | message
  | client
  | remaining
  | converted (type : ValueType)
  deriving DecidableEq, Repr

structure Parameter where
  name : String
  kind : ParameterKind
  requirements : List Value := []

namespace Parameter

def message : Parameter := ⟨"message", .message, []⟩
def client : Parameter := ⟨"client", .client, []⟩
def remaining (name : String) : Parameter := ⟨name, .remaining, []⟩
def converted (name : String) (type : ValueType) : Parameter := ⟨name, .converted type, []⟩

def required (parameter : Parameter) (requirement : Value) : Parameter :=
  { parameter with requirements := parameter.requirements ++ [requirement] }

def target? (parameter : Parameter) : Option ValueType :=
  match parameter.kind with
  | .converted type => some type
  | _ => none

/-- Filled from the surroundings of the call and not from its words. -/
def isContext (parameter : Parameter) : Bool :=
  parameter.kind = .message ∨ parameter.kind = .client

end Parameter

namespace Signature

def count (kind : ParameterKind) (parameters : List Parameter) : Nat :=
  parameters.countP (·.kind = kind)

def checkContext (name : String) : Nat → Except SignatureFault Unit
  | 0 => .error (.missing name)
  | 1 => .ok ()
  | n => .error (.repeated n name)

/-- The first rule that a signature breaks. -/
def check (parameters : List Parameter) : Except SignatureFault Unit := do
  checkContext "message" (count .message parameters)
  checkContext "client" (count .client parameters)
  if 1 < count .remaining parameters then .error .twoRemainders else .ok ()

end Signature

structure Method (Body : Type) where
  name : String
  command : Option String := none
  parameters : List Parameter := []
  requirements : List Value := []
  body : Arguments → Body

structure Module (Body : Type) where
  owner : String
  methods : List (Method Body)
  factory : Option Panic := none

end ChatDispatch
