import ChatDispatch.Command.Module
import ChatDispatch.Conversion
import ChatDispatch.Text.Basic

/-!
Binding a command line to declared parameters. The words behind the command word are handed out in
the order of the parameters: the message and the client take none, a converted parameter takes one,
and a remaining-text parameter takes all that are left.
-/

namespace ChatDispatch.Binding

def words (line : String) : List String :=
  ((Text.pieces ' ' line.toList).drop 1).map String.ofList

structure Call where
  line : String
  message : Message
  client : Client
  converters : ConverterRegistry
  depth : Nat

def remainder (left : List String) : String :=
  String.ofList (Text.joined ' ' (left.map String.toList))

def bindWord (call : Call) (type : ValueType) (word : String) : Ending (Except Fault Argument) :=
  if type = .text then .returned (.ok (.value (.ofText word)))
  else
    let context := call.converters.context call.line call.depth
    (call.converters.convert context type word).map fun result =>
      match result with
      | .ok value => .ok (.value value)
      | .error (.conversion _ cause) => .error (.parameterConversion word type cause)
      | .error fault => .error fault

/-- The argument of one parameter, and the words that are left behind it. -/
def bindOne (call : Call) (kind : ParameterKind) (left : List String) :
    Ending (Except Fault Argument) × List String :=
  match kind with
  | .message => (.returned (.ok (.message call.message)), left)
  | .client => (.returned (.ok (.client call.client)), left)
  | .remaining =>
    let text := remainder left
    (.returned (.ok (if text = "" then .absent else .value (.ofText text))), [])
  | .converted type =>
    match left with
    | [] => (.returned (.ok .absent), [])
    | word :: left => (bindWord call type word, left)

/-- What came of binding: the arguments up to the first that could not be bound, and how it
ended. -/
structure Bound where
  arguments : List Argument
  ending : Ending (Except Fault Unit)

def Bound.result (bound : Bound) : Ending (Except Fault Arguments) :=
  bound.ending.map fun result => result.map fun _ => ⟨bound.arguments⟩

def bindAll (call : Call) : List Parameter → List String → Bound
  | [], _ => ⟨[], .returned (.ok ())⟩
  | parameter :: parameters, left =>
    match bindOne call parameter.kind left with
    | (.returned (.ok argument), left) =>
      let bound := bindAll call parameters left
      ⟨argument :: bound.arguments, bound.ending⟩
    | (.returned (.error fault), _) => ⟨[], .returned (.error fault)⟩
    | (.panicked panic, _) => ⟨[], .panicked panic⟩
    | (.hung, _) => ⟨[], .hung⟩

def unconverted? (converters : ConverterRegistry) (parameters : List Parameter) :
    Option ValueType :=
  parameters.findSome? fun parameter =>
    parameter.target?.filter fun type => type ≠ .text && !converters.contains type

def bind (call : Call) (command : String) (parameters : List Parameter) : Bound :=
  match Signature.check parameters with
  | .error fault => ⟨[], .returned (.error (.invalidMethod command fault))⟩
  | .ok () =>
    match unconverted? call.converters parameters with
    | some type => ⟨[], .returned (.error (.noConverter type))⟩
    | none => bindAll call parameters (words call.line)

def arguments (call : Call) (command : String) (parameters : List Parameter) :
    Ending (Except Fault Arguments) :=
  (bind call command parameters).result

def log (parameters : List Parameter) (bound : Bound) : List LogRecord :=
  (parameters.zip bound.arguments).map fun (parameter, argument) =>
    .bound parameter.name argument.shown

end ChatDispatch.Binding
