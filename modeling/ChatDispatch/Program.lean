import ChatDispatch.Command.Module
import ChatDispatch.Conversion
import ChatDispatch.Fault
import ChatDispatch.Message.Basic
import ChatDispatch.Validation

/-!
What handlers do, as trees of effects. A handler ends well, with a report or with a panic; on the
way it may reply, take notes, let time pass, signal the loop that listens, dispatch further
messages and register commands, converters, validators and observers.
-/

namespace ChatDispatch

/-- What can be sent to a loop that listens: stop, do not stop, or that nothing more will come. -/
inductive Signal where
  | stop
  | carryOn
  | hangUp
  deriving DecidableEq, Repr

/-- A handler at work. An effect that has a result is followed by what the handler does with it. -/
inductive Program where
  | done
  | fail (cause : Cause)
  | panic (panic : Panic)
  | note (entry : Json) (next : Program)
  | reply (client : Client) (peer : Int) (text : String) (next : Option Cause → Program)
  | sleep (milliseconds : Nat) (next : Program)
  | signal (signal : Signal) (next : Program)
  | dispatch (message : Message) (next : Outcome → Program)
  | scan (module : Module Program) (next : Except Fault (List String) → Program)
  | addConverter (converter : Converter) (next : Program)
  | addValidator (validator : Validator) (next : Program)
  | observe (observer : Nat) (next : Program)

namespace Program

/-- Go on with the value of an accessor, or fail with its fault. -/
def given {α : Type} (result : Except Fault α) (next : α → Program) : Program :=
  match result with
  | .ok value => next value
  | .error fault => .fail fault.report

/-- Send a reply as the last effect; a refusal is the handler's failure. -/
def answer (client : Client) (peer : Int) (text : String) : Program :=
  .reply client peer text fun refusal =>
    match refusal with
    | some cause => .fail cause
    | none => .done

end Program

end ChatDispatch
