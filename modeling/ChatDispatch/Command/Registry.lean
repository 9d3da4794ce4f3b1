import ChatDispatch.Command.Module
import ChatDispatch.Program
import ChatDispatch.Text.Numeral

/-!
The registry of commands. A module is registered as a whole or not at all: a command name that is
taken, or that the module carries twice, rejects it.
-/

namespace ChatDispatch

structure Descriptor where
  name : String
  owner : String
  method : String
  parameters : List Parameter
  requirements : List Value
  factory : Option Panic
  body : Arguments → Program

namespace Descriptor

def ofMethod (module : Module Program) (method : Method Program) (name : String) : Descriptor :=
  ⟨name, module.owner, method.name, method.parameters, method.requirements, module.factory,
    method.body⟩

/-- The requirements of the method, then those of its parameters. -/
def allRequirements (descriptor : Descriptor) : List Value :=
  descriptor.requirements ++ descriptor.parameters.flatMap Parameter.requirements

def checkSignature (descriptor : Descriptor) : Except Fault Unit :=
  (Signature.check descriptor.parameters).mapError (.invalidMethod descriptor.name)

def shownRequirements (requirements : List Value) : String :=
  "[" ++ ", ".intercalate (requirements.map fun requirement =>
    "ValidatorAttribute(" ++ requirement.type.name ++ ")") ++ "]"

def shownKind : ParameterKind → String
  | .message => "ContextMessage"
  | .client => "ContextClient"
  | .remaining => "RemainingText"
  | .converted type => "Converted(" ++ type.name ++ ")"

def shownParameter (parameter : Parameter) : String :=
  "ParameterSpec " ++ Text.braced (" name: " ++ Text.quoted parameter.name ++ ", kind: " ++
    shownKind parameter.kind ++ ", validators: " ++ shownRequirements parameter.requirements ++ " ")

def shown (descriptor : Descriptor) : String :=
  "CommandDescriptor " ++ Text.braced (" name: " ++ Text.quoted descriptor.name ++ ", owner: " ++
    descriptor.owner ++ ", method: " ++ Text.quoted descriptor.method ++ ", parameters: [" ++
    ", ".intercalate (descriptor.parameters.map shownParameter) ++ "], validators: " ++
    shownRequirements descriptor.requirements ++ " ")

end Descriptor

structure CommandRegistry where
  table : Table String Descriptor

namespace CommandRegistry

def empty : CommandRegistry := ⟨.empty⟩

def resolve (registry : CommandRegistry) (name : String) : Option Descriptor :=
  registry.table.get? name

def size (registry : CommandRegistry) : Nat := registry.table.size

def names (registry : CommandRegistry) : List String :=
  registry.table.keys.mergeSort fun a b => !decide (b < a)

/-- The owner of a command name: of a registered command, or of one that waits to be. -/
def ownerOf (registry : CommandRegistry) (pending : List Descriptor) (name : String) :
    Option String :=
  match registry.resolve name with
  | some descriptor => some descriptor.owner
  | none => (pending.find? (·.name = name)).map Descriptor.owner

/-- Collect the commands of the methods behind the `pending` ones, and the records of methods that
are passed over. -/
def collect (registry : CommandRegistry) (module : Module Program) (pending : List Descriptor) :
    List (Method Program) → Except Fault (List Descriptor) × List LogRecord
  | [] => (.ok pending, [])
  | method :: methods =>
    match method.command with
    | none =>
      let (result, log) := registry.collect module pending methods
      (result, .methodSkipped module.owner method.name :: log)
    | some name =>
      match registry.ownerOf pending name with
      | some owner => (.error (.duplicateCommand name owner), [])
      | none => registry.collect module (pending ++ [.ofMethod module method name]) methods

def insertAll (registry : CommandRegistry) (descriptors : List Descriptor) : CommandRegistry :=
  descriptors.foldl (fun registry descriptor =>
    ⟨registry.table.insert descriptor.name descriptor⟩) registry

def scan (registry : CommandRegistry) (module : Module Program) :
    Except Fault (List String × CommandRegistry) :=
  (registry.collect module [] module.methods).1.map fun descriptors =>
    (descriptors.map Descriptor.name, registry.insertAll descriptors)

def scanLog (registry : CommandRegistry) (module : Module Program) : List LogRecord :=
  let (result, log) := registry.collect module [] module.methods
  match result with
  | .ok descriptors => log ++ [.moduleRegistered module.owner descriptors.length]
  | .error _ => log

end CommandRegistry

end ChatDispatch
