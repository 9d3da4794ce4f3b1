import ChatDispatch.Command.Module
import ChatDispatch.Fault
import ChatDispatch.Json.Basic
import ChatDispatch.Log.Record
import ChatDispatch.Table

/-!
Validators and the registry that holds one for each type of requirement. A validator that answers
`false` rejects the call, which is not an error of the validator.
-/

namespace ChatDispatch

structure Verdict where
  answer : Ending (Except Cause Bool)
  notes : List Json := []

structure Validator where
  requirement : ValueType
  check : requirement.Carrier → Message → Arguments → Verdict

namespace Validator

/-- The report of a validator that met a requirement of a type it is not for. -/
def strayRequirement (own met : ValueType) : Cause :=
  ⟨"validator for " ++ own.name ++ " received a " ++ met.name ++ " attribute", []⟩

/-- The check with the static type forgotten. -/
def judge (validator : Validator) (requirement : Value) (message : Message)
    (arguments : Arguments) : Verdict :=
  match requirement.as? validator.requirement with
  | some content => validator.check content message arguments
  | none => ⟨.returned (.error (strayRequirement validator.requirement requirement.type)), []⟩

end Validator

structure ValidatorRegistry where
  table : Table ValueType Validator

namespace ValidatorRegistry

def empty : ValidatorRegistry := ⟨.empty⟩

def lookup (registry : ValidatorRegistry) (type : ValueType) : Option Validator :=
  registry.table.get? type

def contains (registry : ValidatorRegistry) (type : ValueType) : Bool :=
  registry.table.contains type

def size (registry : ValidatorRegistry) : Nat := registry.table.size

def register (registry : ValidatorRegistry) (validator : Validator) : ValidatorRegistry :=
  ⟨registry.table.insert validator.requirement validator⟩

def registrationLog (registry : ValidatorRegistry) (validator : Validator) : List LogRecord :=
  if registry.contains validator.requirement then
    [.validatorReplaced validator.requirement.name] else []

def validate (registry : ValidatorRegistry) (requirement : Value) (message : Message)
    (arguments : Arguments) : Ending (Except Fault Bool) × List Json :=
  match registry.lookup requirement.type with
  | none => (.returned (.error (.noValidator requirement.type)), [])
  | some validator =>
    let verdict := validator.judge requirement message arguments
    (verdict.answer.map fun result =>
      result.mapError (.validationInvocation requirement.type), verdict.notes)

end ValidatorRegistry

end ChatDispatch
