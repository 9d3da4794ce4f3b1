import ChatDispatch.Command.Binding
import ChatDispatch.Processor

/-!
Dispatching messages: find the command, bind its arguments, have its requirements judged, then
build the module and run the handler. Every fault on the way is reported to the log and to the
observers and becomes the outcome.
-/

namespace ChatDispatch

open ChatDispatch.Action

/-- Run a handler; `nested` dispatches the messages that it dispatches itself. -/
def Program.run (nested : Message → Action Outcome) : Program → Action (Except Cause Unit)
  | .done => pure (.ok ())
  | .fail cause => pure (.error cause)
  | .panic payload => raise payload
  | .note entry next => do
    enter (.noted entry)
    next.run nested
  | .reply client peer text next => do
    let refusal ← Processor.reply client peer text
    (next refusal).run nested
  | .sleep milliseconds next => do
    Processor.sleep milliseconds
    next.run nested
  | .signal sent next => do
    Processor.signal sent
    next.run nested
  | .dispatch message next => do
    let outcome ← nested message
    (next outcome).run nested
  | .scan module next => do
    let result ← Processor.scan module
    (next result).run nested
  | .addConverter converter next => do
    Processor.addConverter converter
    next.run nested
  | .addValidator validator next => do
    Processor.addValidator validator
    next.run nested
  | .observe observer next => do
    Processor.observe observer
    next.run nested

namespace Processor

def judge (level : Nat) (message : Message) (arguments : Arguments) (requirement : Value) :
    Action (Except Fault Bool) := do
  let processor ← state
  let (answer, notes) := processor.validators.validate requirement message arguments
  enterAll (if processor.validators.contains requirement.type then
    [.called level (.judged requirement)] else [])
  enterAll (notes.map .noted)
  ofEnding answer

/-- Have the requirements judged in order, up to the first that is not met. -/
def judgeAll (level : Nat) (command : String) (message : Message) (arguments : Arguments) :
    List Value → Action (Except Fault Unit)
  | [] => pure (.ok ())
  | requirement :: rest => do
    match ← judge level message arguments requirement with
    | .ok true => judgeAll level command message arguments rest
    | .ok false => pure (.error (.failedValidation command requirement.type))
    | .error fault => pure (.error fault)

def build (level : Nat) (descriptor : Descriptor) : Action Unit := do
  enter (.called level (.built descriptor.owner))
  match descriptor.factory with
  | some panic => raise panic
  | none => pure ()

def panicCause (panic : Panic) : Cause := ⟨"handler panicked: " ++ panic.message, []⟩

/-- The result of a handler; a panic is a failure with a report of its own. -/
def handlerResult : Except Panic (Except Cause Unit) → Except Cause Unit
  | .ok result => result
  | .error panic => .error (panicCause panic)

/-- Build a fresh module and run the handler on it; panics of both are caught. -/
def invoke (level : Nat) (nested : Message → Action Outcome) (descriptor : Descriptor)
    (arguments : Arguments) : Action (Except Fault Unit) := do
  log (.invoking descriptor.name descriptor.owner descriptor.method)
  let result ← guarded do
    build level descriptor
    enter (.called level (.entered descriptor.name))
    (descriptor.body arguments).run nested
  return (handlerResult result).mapError
    (.handlerInvocation descriptor.name descriptor.owner descriptor.method)

def bindWords (level : Nat) (descriptor : Descriptor) (message : Message) :
    Action (Except Fault Arguments) := do
  let processor ← state
  let call : Binding.Call :=
    ⟨message.content, message, processor.client, processor.converters, level⟩
  let bound := Binding.bind call descriptor.name descriptor.parameters
  logAll (Binding.log descriptor.parameters bound)
  ofEnding bound.result

def execute (level : Nat) (nested : Message → Action Outcome) (descriptor : Descriptor)
    (message : Message) : Action (Except Fault Unit) := do
  match ← bindWords level descriptor message with
  | .error fault => pure (.error fault)
  | .ok arguments => do
    match ← judgeAll level descriptor.name message arguments descriptor.allRequirements with
    | .error fault => pure (.error fault)
    | .ok () => invoke level nested descriptor arguments

/-- Log a failure and show it to every observer, in the order of their subscription. -/
def report (command : String) (peer : Int) (failure : Failure) : Action Unit := do
  let stage := failure.fault.stage.name
  log (.commandFailed command stage failure.fault.message)
  log (.event (.ofEvent peer
    (.failed (some command) failure.line stage failure.fault.message)))
  let processor ← state
  enterAll (processor.observers.map fun observer => .observed observer failure)

def perform (level : Nat) (nested : Message → Action Outcome) (descriptor : Descriptor)
    (name : String) (message : Message) : Action Outcome := do
  match ← execute level nested descriptor message with
  | .ok () => do
    log (.event (.ofEvent message.peer (.dispatched name message.content)))
    pure (.executed name)
  | .error fault => do
    let failure : Failure := ⟨message.content, fault⟩
    report name message.peer failure
    pure (.failed failure)

def settle (level : Nat) (nested : Message → Action Outcome) (message : Message) :
    Action Outcome := do
  let processor ← state
  match processor.settings.detect? message.content with
  | none => do
    log (.notACommand message.peer)
    pure (.ignored .notACommand)
  | some name =>
    match processor.commands.resolve name with
    | none => do
      log (.unknownCommand name)
      pure (.ignored (.unknownCommand name))
    | some descriptor => perform level nested descriptor name message

/-- Dispatch one message. `depth` bounds how deep dispatches may be nested in each other. -/
def dispatch : Nat → Message → Action Outcome
  | 0, _ => hang
  | level + 1, message => do
    let outcome ← settle level (dispatch level) message
    enter (.concluded level message outcome)
    pure outcome

def dispatchUpdate (depth : Nat) (update : Update) : Action Outcome := do
  enter (.taken update)
  match update.message? with
  | some message => dispatch depth message
  | none => do
    log (.updateSkipped update.kind)
    pure (.ignored (.notAMessage update.kind))

def dispatchBatch (depth : Nat) : List Update → Action (List Outcome)
  | [] => pure []
  | update :: updates => do
    let outcome ← dispatchUpdate depth update
    let outcomes ← dispatchBatch depth updates
    pure (outcome :: outcomes)

end Processor

end ChatDispatch
