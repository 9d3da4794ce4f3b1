import ChatDispatch.Value

/-!
How a call to foreign code ends: it returns, it panics, or it is never seen to end. What can go
wrong with a command, as causes, the stage of a dispatch that each belongs to, and what comes of
dispatching an update.
-/

namespace ChatDispatch

/-- What a panic carries: a text, or something that is not one. -/
inductive Panic where
  | text (message : String)
  | other
  deriving DecidableEq, Repr

def Panic.message : Panic → String
  | text message => message
  | other => "non-string panic payload"

inductive Ending (α : Type) where
  | returned (value : α)
  | panicked (panic : Panic)
  | hung
  deriving Repr

namespace Ending

def map {α β : Type} (f : α → β) : Ending α → Ending β
  | returned value => returned (f value)
  | panicked panic => panicked panic
  | hung => hung

def bind {α β : Type} (ending : Ending α) (f : α → Ending β) : Ending β :=
  match ending with
  | returned value => f value
  | panicked panic => panicked panic
  | hung => hung

instance : Monad Ending where
  pure := returned
  bind := bind

theorem map_map {α β γ : Type} (ending : Ending α) (f : α → β) (g : β → γ) :
    (ending.map f).map g = ending.map fun value => g (f value) := by
  cases ending <;> rfl

theorem map_eq_returned_iff {α β : Type} {ending : Ending α} {f : α → β} {result : β} :
    ending.map f = .returned result ↔ ∃ value, ending = .returned value ∧ f value = result := by
  cases ending <;> simp [map]

end Ending

/-- An error report: its outermost text, and the texts of what caused it, outermost first. -/
structure Cause where
  text : String
  deeper : List String := []
  deriving DecidableEq, Repr

namespace Cause

/-- The report under a further text that says what was being done. -/
def within (outer : String) (cause : Cause) : Cause :=
  ⟨outer, cause.text :: cause.deeper⟩

def chain (cause : Cause) : List String := cause.text :: cause.deeper

end Cause

inductive Stage where
  | registration
  | parse
  | validation
  | handler
  deriving DecidableEq, Repr

def Stage.name : Stage → String
  | registration => "registration"
  | parse => "parse"
  | validation => "validation"
  | handler => "handler"

inductive Wanted where
  | message
  | client
  | value (type : ValueType)
  deriving DecidableEq, Repr

def Wanted.name : Wanted → String
  | message => "Message"
  | client => "ChatClient"
  | value type => type.name

inductive SignatureFault where
  | missing (context : String)
  | repeated (count : Nat) (context : String)
  | twoRemainders
  deriving DecidableEq, Repr

def SignatureFault.reason : SignatureFault → String
  | missing context => "missing the " ++ context ++ " context parameter"
  | repeated count context =>
    "declares " ++ toString count ++ " " ++ context ++ " context parameters"
  | twoRemainders => "declares more than one remaining-text parameter"

inductive Fault where
  | invalidMethod (command : String) (fault : SignatureFault)
  | noConverter (type : ValueType)
  | noValidator (requirement : ValueType)
  | conversion (target : ValueType) (cause : Cause)
  | parameterConversion (token : String) (target : ValueType) (cause : Cause)
  | validationInvocation (requirement : ValueType) (cause : Cause)
  | failedValidation (command : String) (requirement : ValueType)
  | handlerInvocation (command owner method : String) (cause : Cause)
  | argumentMismatch (index : Nat) (wanted : Wanted)
  | duplicateCommand (name owner : String)
  deriving DecidableEq, Repr

namespace Fault

def message : Fault → String
  | invalidMethod command fault =>
    "invalid command method for '" ++ command ++ "': " ++ fault.reason
  | noConverter type => "no parameter converter registered for " ++ type.name
  | noValidator requirement => "no command validator registered for " ++ requirement.name
  | conversion target _ => "could not convert value to " ++ target.name
  | parameterConversion token target _ =>
    "could not convert '" ++ token ++ "' to " ++ target.name
  | validationInvocation requirement _ => "could not validate " ++ requirement.name
  | failedValidation command requirement =>
    "command '" ++ command ++ "' rejected by " ++ requirement.name
  | handlerInvocation command owner method _ =>
    "command '" ++ command ++ "' (" ++ owner ++ "::" ++ method ++ ") failed"
  | argumentMismatch index wanted =>
    "argument " ++ toString index ++ " is not a " ++ wanted.name
  | duplicateCommand name owner =>
    "command '" ++ name ++ "' is already registered by " ++ owner

def cause? : Fault → Option Cause
  | conversion _ cause => some cause
  | parameterConversion _ _ cause => some cause
  | validationInvocation _ cause => some cause
  | handlerInvocation _ _ _ cause => some cause
  | _ => none

def causes (fault : Fault) : List String :=
  (fault.cause?.map Cause.chain).getD []

def report (fault : Fault) : Cause := ⟨fault.message, fault.causes⟩

def stage : Fault → Stage
  | duplicateCommand .. => .registration
  | invalidMethod .. | noConverter .. | conversion .. | parameterConversion .. => .parse
  | noValidator .. | validationInvocation .. | failedValidation .. => .validation
  | handlerInvocation .. | argumentMismatch .. => .handler

/-- The handler ran and failed, as opposed to the engine not calling it. -/
def isHandlerFailure : Fault → Bool
  | handlerInvocation .. => true
  | _ => false

end Fault

structure Failure where
  line : String
  fault : Fault
  deriving DecidableEq, Repr

/-- Why an update has no effect: its message names no command, or one that is not registered, or
it carries no fresh message. -/
inductive IgnoreReason where
  | notACommand
  | unknownCommand (name : String)
  | notAMessage (kind : String)
  deriving DecidableEq, Repr

inductive Outcome where
  | ignored (reason : IgnoreReason)
  | executed (command : String)
  | failed (failure : Failure)
  deriving DecidableEq, Repr

namespace Outcome

def isExecuted : Outcome → Bool
  | executed _ => true
  | _ => false

def failure? : Outcome → Option Failure
  | failed failure => some failure
  | _ => none

end Outcome

end ChatDispatch
