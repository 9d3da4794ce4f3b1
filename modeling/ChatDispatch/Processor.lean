import ChatDispatch.Command.Registry
import ChatDispatch.Detection
import ChatDispatch.Listening.Clock

/-!
The state of a command processor, and actions on it. An action ends in some way, leaves a state
and adds to the journal, which keeps everything that can be seen from outside in the order in which
it happened. Actions are a lawful monad.
-/

namespace ChatDispatch

structure Processor where
  settings : Settings
  client : Client
  commands : CommandRegistry := .empty
  converters : ConverterRegistry := .builtin
  validators : ValidatorRegistry := .empty
  observers : List Nat := []
  clock : Clock := {}

inductive ForeignCall where
  | judged (requirement : Value)
  | built (owner : String)
  | entered (command : String)

/-- What can be seen of the engine at work. A signal is `signalled` by a handler or a source, or
comes of a timer that has `expired`. A loop that listens has `asked` its source for a batch; while
it dispatches a batch or waits it is `engaged`, and what it finds its switch to be at the end of
that is what it was `released` with. The calls that a dispatch makes and its outcome carry its
level: how many dispatches could still be nested inside it. -/
inductive Entry where
  | logged (record : LogRecord)
  | replied (peer : Int) (text : String)
  | noted (note : Json)
  | subscribed (observer : Nat)
  | observed (observer : Nat) (failure : Failure)
  | signalled (signal : Signal)
  | expired (timer : Timer)
  | asked
  | engaged
  | released (switch : Switch)
  | taken (update : Update)
  | called (level : Nat) (call : ForeignCall)
  | concluded (level : Nat) (message : Message) (outcome : Outcome)

structure Run (α : Type) where
  ending : Ending α
  after : Processor
  journal : List Entry

def Action (α : Type) : Type := Processor → Run α

namespace Action

variable {α β γ : Type}

protected def pure (value : α) : Action α := fun processor => ⟨.returned value, processor, []⟩

/-- Go on with the value of an action; a panic or a hung call ends the whole. -/
protected def bind (action : Action α) (next : α → Action β) : Action β := fun processor =>
  let run := action processor
  match run.ending with
  | .returned value =>
    let further := next value run.after
    ⟨further.ending, further.after, run.journal ++ further.journal⟩
  | .panicked panic => ⟨.panicked panic, run.after, run.journal⟩
  | .hung => ⟨.hung, run.after, run.journal⟩

instance : Monad Action where
  pure := Action.pure
  bind := Action.bind

protected theorem bind_pure (action : Action α) : Action.bind action Action.pure = action := by
  funext processor
  simp only [Action.bind, Action.pure]
  cases h : (action processor).ending <;> simp [← h]

protected theorem bind_assoc (action : Action α) (next : α → Action β) (last : β → Action γ) :
    Action.bind (Action.bind action next) last =
      Action.bind action fun value => Action.bind (next value) last := by
  funext processor
  simp only [Action.bind]
  cases (action processor).ending with
  | returned value =>
    cases h : (next value (action processor).after).ending <;> simp [h]
  | panicked panic => rfl
  | hung => rfl

instance : LawfulMonad Action :=
  LawfulMonad.mk' Action Action.bind_pure (fun _ _ => rfl) Action.bind_assoc

def state : Action Processor := fun processor => ⟨.returned processor, processor, []⟩

def update (change : Processor → Processor) : Action Unit := fun processor =>
  ⟨.returned (), change processor, []⟩

def enterAll (entries : List Entry) : Action Unit := fun processor =>
  ⟨.returned (), processor, entries⟩

def enter (entry : Entry) : Action Unit := enterAll [entry]

def log (record : LogRecord) : Action Unit := enter (.logged record)

def logAll (records : List LogRecord) : Action Unit := enterAll (records.map .logged)

def ofEnding (ending : Ending α) : Action α := fun processor => ⟨ending, processor, []⟩

def raise (panic : Panic) : Action α := ofEnding (.panicked panic)

def hang : Action α := ofEnding .hung

def guarded (action : Action α) : Action (Except Panic α) := fun processor =>
  let run := action processor
  let ending := match run.ending with
    | .returned value => .returned (.ok value)
    | .panicked panic => .returned (.error panic)
    | .hung => .hung
  ⟨ending, run.after, run.journal⟩

end Action

namespace Processor

def new (settings : Settings) (client : Client) : Processor := { settings, client }

def scan (module : Module Program) : Action (Except Fault (List String)) := do
  let processor ← Action.state
  Action.logAll (processor.commands.scanLog module)
  match processor.commands.scan module with
  | .ok (names, commands) => do
    Action.update fun processor => { processor with commands }
    return .ok names
  | .error fault => do
    Action.log (.moduleRejected module.owner fault.message)
    return .error fault

def addConverter (converter : Converter) : Action Unit := do
  let processor ← Action.state
  Action.logAll (processor.converters.registrationLog converter)
  Action.update fun processor =>
    { processor with converters := processor.converters.register converter }

def addValidator (validator : Validator) : Action Unit := do
  let processor ← Action.state
  Action.logAll (processor.validators.registrationLog validator)
  Action.update fun processor =>
    { processor with validators := processor.validators.register validator }

def observe (observer : Nat) : Action Unit := do
  Action.enter (.subscribed observer)
  Action.update fun processor => { processor with observers := processor.observers ++ [observer] }

/-- Let time pass; the timers that expire meanwhile go into the journal. -/
def pass (wait : Clock → Clock.Waited) : Action Clock.WaitEnd := do
  let processor ← Action.state
  let waited := wait processor.clock
  Action.update fun processor => { processor with clock := waited.clock }
  Action.enterAll (waited.delivered.map .expired)
  return waited.waitEnd

/-- Let time pass, deaf to signals; they still reach the switch. -/
def sleep (milliseconds : Nat) : Action Unit := do
  let waitEnd ← pass (Clock.wait false milliseconds)
  if waitEnd = .givenUp then Action.hang else return ()

def signal (signal : Signal) : Action Unit := do
  Action.enter (.signalled signal)
  Action.update fun processor => { processor with clock := processor.clock.send signal }

/-- Send a reply: `none`, or the report of the client that refuses it. -/
def reply (client : Client) (peer : Int) (text : String) : Action (Option Cause) := do
  Action.logAll (if client.announces then [.replySent peer] else [])
  match client.refuses peer text with
  | some cause => return some cause
  | none => do
    Action.enter (.replied peer text)
    return none

end Processor

end ChatDispatch
