import ChatDispatch.Proofs.Conversion.Registry
import ChatDispatch.Proofs.Dispatch.Calls
import ChatDispatch.Proofs.Registration.Scans

/-!
Processors that cannot be told apart. All that a processor does with its registries is to look
things up in them, so where two processors agree on the rest of their states and find the same under
every name and type, they do the same in public, and still agree when they have done it. That covers
what handlers register as well.
-/

namespace ChatDispatch

namespace CommandRegistry

variable {first second : CommandRegistry}

theorem ownerOf_congr (h : ∀ name, first.resolve name = second.resolve name)
    (pending : List Descriptor) (name : String) :
    first.ownerOf pending name = second.ownerOf pending name := by
  unfold ownerOf
  rw [h name]

theorem collect_congr (h : ∀ name, first.resolve name = second.resolve name)
    (module : Module Program) (pending : List Descriptor) (methods : List (Method Program)) :
    first.collect module pending methods = second.collect module pending methods := by
  induction methods generalizing pending with
  | nil => rfl
  | cons method methods ih =>
    cases hname : method.command with
    | none => simp only [collect, hname, ih pending]
    | some name => simp only [collect, hname, ownerOf_congr h, ih]

theorem scanLog_congr (h : ∀ name, first.resolve name = second.resolve name)
    (module : Module Program) : first.scanLog module = second.scanLog module := by
  unfold scanLog
  rw [collect_congr h]

theorem resolve_insertAll_congr (h : ∀ name, first.resolve name = second.resolve name)
    (descriptors : List Descriptor) (name : String) :
    (first.insertAll descriptors).resolve name = (second.insertAll descriptors).resolve name := by
  induction descriptors generalizing first second with
  | nil => exact h name
  | cons descriptor rest ih =>
    rw [insertAll, insertAll, List.foldl_cons, List.foldl_cons]
    refine ih ?_
    intro other
    rw [resolve_insert, resolve_insert, h other]

end CommandRegistry

namespace ConverterRegistry

variable {first second : ConverterRegistry}

theorem contains_congr (h : ∀ type, first.lookup type = second.lookup type) (type : ValueType) :
    first.contains type = second.contains type :=
  congrArg Option.isSome (h type)

theorem registrationLog_congr (h : ∀ type, first.lookup type = second.lookup type)
    (converter : Converter) :
    first.registrationLog converter = second.registrationLog converter := by
  unfold registrationLog
  rw [contains_congr h, contains_congr h]

/-- Converters find the same converters; the induction is on how deep they may ask in turn. -/
theorem context_congr (h : ∀ type, first.lookup type = second.lookup type) (line : String)
    (depth : Nat) : first.context line depth = second.context line depth := by
  induction depth with
  | zero => simp only [context, h]
  | succ depth ih => simp only [context, h, ih]

theorem convert_congr (h : ∀ type, first.lookup type = second.lookup type) (context : Context)
    (type : ValueType) (word : String) :
    first.convert context type word = second.convert context type word := by
  unfold convert
  rw [h type]

end ConverterRegistry

namespace ValidatorRegistry

variable {first second : ValidatorRegistry}

theorem contains_congr (h : ∀ type, first.lookup type = second.lookup type) (type : ValueType) :
    first.contains type = second.contains type :=
  congrArg Option.isSome (h type)

theorem registrationLog_congr (h : ∀ type, first.lookup type = second.lookup type)
    (validator : Validator) :
    first.registrationLog validator = second.registrationLog validator := by
  unfold registrationLog
  rw [contains_congr h]

theorem validate_congr (h : ∀ type, first.lookup type = second.lookup type) (requirement : Value)
    (message : Message) (arguments : Arguments) :
    first.validate requirement message arguments =
      second.validate requirement message arguments := by
  unfold validate
  rw [h requirement.type]

end ValidatorRegistry

namespace Binding

structure Call.Alike (first second : Call) : Prop where
  line : first.line = second.line
  message : first.message = second.message
  client : first.client = second.client
  converters : ∀ type, first.converters.lookup type = second.converters.lookup type
  depth : first.depth = second.depth

variable {first second : Call}

theorem bindWord_congr (h : first.Alike second) (type : ValueType) (word : String) :
    bindWord first type word = bindWord second type word := by
  unfold bindWord
  rw [h.line, h.depth, ConverterRegistry.context_congr h.converters]
  simp only [ConverterRegistry.convert_congr h.converters]

theorem bindOne_congr (h : first.Alike second) (kind : ParameterKind) (left : List String) :
    bindOne first kind left = bindOne second kind left := by
  cases kind with
  | message => simp only [bindOne, h.message]
  | client => simp only [bindOne, h.client]
  | remaining => rfl
  | converted type =>
    cases left with
    | nil => rfl
    | cons word left => simp only [bindOne, bindWord_congr h]

theorem bindAll_congr (h : first.Alike second) (parameters : List Parameter)
    (left : List String) : bindAll first parameters left = bindAll second parameters left := by
  induction parameters generalizing left with
  | nil => rfl
  | cons parameter parameters ih => simp only [bindAll, bindOne_congr h, ih]

theorem unconverted?_congr (h : first.Alike second) (parameters : List Parameter) :
    unconverted? first.converters parameters = unconverted? second.converters parameters := by
  unfold unconverted?
  simp only [ConverterRegistry.contains_congr h.converters]

theorem bind_congr (h : first.Alike second) (command : String) (parameters : List Parameter) :
    bind first command parameters = bind second command parameters := by
  unfold bind
  rw [unconverted?_congr h, h.line]
  simp only [bindAll_congr h]

end Binding

/-- Processors that differ at most in how their registries are stored. -/
structure Processor.Alike (p q : Processor) : Prop where
  settings : p.settings = q.settings
  client : p.client = q.client
  commands : ∀ name, p.commands.resolve name = q.commands.resolve name
  converters : ∀ type, p.converters.lookup type = q.converters.lookup type
  validators : ∀ type, p.validators.lookup type = q.validators.lookup type
  observers : p.observers = q.observers
  clock : p.clock = q.clock

namespace Processor.Alike

variable {p q r : Processor}

theorem refl (p : Processor) : p.Alike p :=
  ⟨rfl, rfl, fun _ => rfl, fun _ => rfl, fun _ => rfl, rfl, rfl⟩

theorem trans (h : p.Alike q) (hnext : q.Alike r) : p.Alike r where
  settings := h.settings.trans hnext.settings
  client := h.client.trans hnext.client
  commands name := (h.commands name).trans (hnext.commands name)
  converters type := (h.converters type).trans (hnext.converters type)
  validators type := (h.validators type).trans (hnext.validators type)
  observers := h.observers.trans hnext.observers
  clock := h.clock.trans hnext.clock

theorem call (h : p.Alike q) (level : Nat) (message : Message) :
    (p.call level message).Alike (q.call level message) :=
  ⟨rfl, rfl, h.client, h.converters, rfl⟩

end Processor.Alike

structure Run.Alike {α : Type} (first second : Run α) : Prop where
  ending : first.ending = second.ending
  after : first.after.Alike second.after
  journal : first.journal = second.journal

/-- An action that does not tell such processors apart. -/
def Action.Faithful (α : Type) (action : Action α) : Prop :=
  ∀ p q : Processor, p.Alike q → (action p).Alike (action q)

namespace Action.Faithful

variable {α β : Type}

theorem ofEnding (ending : Ending α) : Faithful α (Action.ofEnding ending) :=
  fun _ _ h => ⟨rfl, h, rfl⟩

theorem pure (value : α) : Faithful α (pure value) := ofEnding (.returned value)

theorem enterAll (entries : List Entry) : Faithful Unit (Action.enterAll entries) :=
  fun _ _ h => ⟨rfl, h, rfl⟩

theorem enter (entry : Entry) : Faithful Unit (Action.enter entry) := enterAll [entry]

theorem log (record : LogRecord) : Faithful Unit (Action.log record) := enter (.logged record)

theorem update {change : Processor → Processor}
    (hchange : ∀ p q : Processor, p.Alike q → (change p).Alike (change q)) :
    Faithful Unit (Action.update change) :=
  fun p q h => ⟨rfl, hchange p q h, rfl⟩

theorem bind {action : Action α} {next : α → Action β} (ha : Faithful α action)
    (hn : ∀ value, Faithful β (next value)) : Faithful β (action >>= next) := by
  intro p q h
  have hfirst := ha p q h
  cases hp : (action p).ending with
  | returned value =>
    have hq : (action q).ending = .returned value := hfirst.ending.symm.trans hp
    have hnext := hn value _ _ hfirst.after
    rw [bind_of_returned hp, bind_of_returned hq]
    refine ⟨hnext.ending, hnext.after, ?_⟩
    rw [hfirst.journal, hnext.journal]
  | panicked panic =>
    have hq : (action q).ending = .panicked panic := hfirst.ending.symm.trans hp
    rw [bind_of_panicked hp, bind_of_panicked hq]
    exact ⟨rfl, hfirst.after, hfirst.journal⟩
  | hung =>
    have hq : (action q).ending = .hung := hfirst.ending.symm.trans hp
    rw [bind_of_hung hp, bind_of_hung hq]
    exact ⟨rfl, hfirst.after, hfirst.journal⟩

/-- An action may go by what such processors have in common. -/
theorem inspect {next : Processor → Action β}
    (hsame : ∀ p q : Processor, p.Alike q → next p = next q)
    (hn : ∀ p, Faithful β (next p)) : Faithful β (state >>= next) := by
  intro p q h
  rw [state_bind, state_bind, ← hsame p q h]
  exact hn p p q h

theorem guarded {action : Action α} (ha : Faithful α action) :
    Faithful _ (Action.guarded action) := by
  intro p q h
  have hrun := ha p q h
  refine ⟨?_, hrun.after, hrun.journal⟩
  simp only [Action.guarded, hrun.ending]

theorem forM {ι : Type} {action : ι → Action Unit} (ha : ∀ item, Faithful Unit (action item))
    (items : List ι) : Faithful Unit (items.forM action) := by
  induction items with
  | nil => exact pure ()
  | cons item rest ih =>
    rw [List.forM_eq_forM, List.forM_cons]
    exact (ha item).bind fun _ => ih

theorem reply (client : Client) (peer : Int) (text : String) :
    Faithful _ (Processor.reply client peer text) := by
  refine (enterAll _).bind fun _ => ?_
  cases client.refuses peer text with
  | some cause => exact pure (some cause)
  | none => exact (enter _).bind fun _ => pure none

theorem pass (wait : Clock → Clock.Waited) : Faithful _ (Processor.pass wait) := by
  intro p q h
  rw [Processor.pass_apply, Processor.pass_apply, h.clock]
  exact ⟨rfl, { h with clock := rfl }, rfl⟩

theorem sleep (milliseconds : Nat) : Faithful Unit (Processor.sleep milliseconds) := by
  refine (pass _).bind fun waitEnd => ?_
  split
  · exact ofEnding .hung
  · exact pure ()

theorem signal (sent : Signal) : Faithful Unit (Processor.signal sent) := by
  refine (enter _).bind fun _ => update fun p q h => ?_
  exact { h with clock := congrArg (Clock.send · sent) h.clock }

theorem scan (module : Module Program) : Faithful _ (Processor.scan module) := by
  intro p q h
  have hcollect : p.commands.collect module [] module.methods =
      q.commands.collect module [] module.methods := CommandRegistry.collect_congr h.commands ..
  unfold Processor.scan
  rw [state_bind, state_bind, CommandRegistry.scanLog_congr h.commands, CommandRegistry.scan,
    CommandRegistry.scan, hcollect]
  cases (q.commands.collect module [] module.methods).1 with
  | error fault => exact ⟨rfl, h, rfl⟩
  | ok descriptors =>
    -- The tables may still differ in their order: only what is found in them is the same.
    exact ⟨rfl, { h with
      commands := CommandRegistry.resolve_insertAll_congr h.commands descriptors }, rfl⟩

theorem addConverter (converter : Converter) :
    Faithful Unit (Processor.addConverter converter) := by
  apply inspect
  · intro p q h
    rw [ConverterRegistry.registrationLog_congr h.converters]
  · refine fun p => (enterAll _).bind fun _ => update fun p q h => { h with converters := ?_ }
    intro type
    rw [ConverterRegistry.lookup_register, ConverterRegistry.lookup_register, h.converters type]

theorem addValidator (validator : Validator) :
    Faithful Unit (Processor.addValidator validator) := by
  apply inspect
  · intro p q h
    rw [ValidatorRegistry.registrationLog_congr h.validators]
  · refine fun p => (enterAll _).bind fun _ => update fun p q h => { h with validators := ?_ }
    intro type
    rw [ValidatorRegistry.lookup_register, ValidatorRegistry.lookup_register, h.validators type]

theorem observe (observer : Nat) : Faithful Unit (Processor.observe observer) := by
  refine (enter _).bind fun _ => update fun p q h => ?_
  exact { h with observers := congrArg (· ++ [observer]) h.observers }

theorem handling : Handling Faithful where
  bind := bind
  ofEnding := ofEnding
  note _ := enter _
  reply := reply
  sleep := sleep
  signal := signal
  scan := scan
  addConverter := addConverter
  addValidator := addValidator
  observe := observe

section Engine

variable {nested : Message → Action Outcome}

theorem judge (level : Nat) (message : Message) (arguments : Arguments) (requirement : Value) :
    Faithful _ (Processor.judge level message arguments requirement) := by
  intro p q h
  rw [Processor.judge_apply, Processor.judge_apply,
    ValidatorRegistry.validate_congr h.validators, ValidatorRegistry.contains_congr h.validators]
  exact ⟨rfl, h, rfl⟩

theorem judgeAll (level : Nat) (command : String) (message : Message) (arguments : Arguments)
    (requirements : List Value) :
    Faithful _ (Processor.judgeAll level command message arguments requirements) := by
  induction requirements with
  | nil => exact pure _
  | cons requirement rest ih =>
    refine (judge level message arguments requirement).bind fun answer => ?_
    match answer with
    | .ok true => exact ih
    | .ok false => exact pure _
    | .error fault => exact pure _

theorem build (level : Nat) (descriptor : Descriptor) :
    Faithful Unit (Processor.build level descriptor) := by
  refine (enter _).bind fun _ => ?_
  cases descriptor.factory with
  | some panic => exact ofEnding (.panicked panic)
  | none => exact pure ()

theorem invoke (hnested : ∀ message, Faithful _ (nested message)) (level : Nat)
    (descriptor : Descriptor) (arguments : Arguments) :
    Faithful _ (Processor.invoke level nested descriptor arguments) := by
  refine (log _).bind fun _ => (guarded ?_).bind fun _ => pure _
  refine (build level descriptor).bind fun _ => (enter _).bind fun _ => ?_
  exact handling.run hnested (descriptor.body arguments)

theorem bindWords (level : Nat) (descriptor : Descriptor) (message : Message) :
    Faithful _ (Processor.bindWords level descriptor message) := by
  apply inspect
  · intro p q h
    have hbound := Binding.bind_congr (h.call level message) descriptor.name descriptor.parameters
    simp only [Processor.call] at hbound
    simp only [hbound]
  · exact fun p => (enterAll _).bind fun _ => ofEnding _

theorem execute (hnested : ∀ message, Faithful _ (nested message)) (level : Nat)
    (descriptor : Descriptor) (message : Message) :
    Faithful _ (Processor.execute level nested descriptor message) := by
  refine (bindWords level descriptor message).bind fun bound => ?_
  cases bound with
  | error fault => exact pure _
  | ok arguments =>
    have hjudging := judgeAll level descriptor.name message arguments descriptor.allRequirements
    refine hjudging.bind fun judged => ?_
    cases judged with
    | error fault => exact pure _
    | ok _ => exact invoke hnested level descriptor arguments

theorem report (command : String) (peer : Int) (failure : Failure) :
    Faithful Unit (Processor.report command peer failure) := by
  refine (log _).bind fun _ => (log _).bind fun _ => inspect ?_ fun p => enterAll _
  intro p q h
  rw [h.observers]

theorem perform (hnested : ∀ message, Faithful _ (nested message)) (level : Nat)
    (descriptor : Descriptor) (name : String) (message : Message) :
    Faithful _ (Processor.perform level nested descriptor name message) := by
  refine (execute hnested level descriptor message).bind fun result => ?_
  cases result with
  | ok _ => exact (log _).bind fun _ => pure _
  | error fault => exact (report name message.peer _).bind fun _ => pure _

theorem settle (hnested : ∀ message, Faithful _ (nested message)) (level : Nat)
    (message : Message) : Faithful _ (Processor.settle level nested message) := by
  apply inspect
  · intro p q h
    simp only [h.settings, h.commands]
  · intro p
    cases p.settings.detect? message.content with
    | none =>
      dsimp only
      exact (log _).bind fun _ => pure _
    | some name =>
      dsimp only
      cases p.commands.resolve name with
      | none => exact (log _).bind fun _ => pure _
      | some descriptor => exact perform hnested level descriptor name message

/-- A dispatch does not tell such processors apart; the induction is on how deep dispatches may be
nested in each other. -/
theorem dispatch (depth : Nat) (message : Message) :
    Faithful _ (Processor.dispatch depth message) := by
  induction depth generalizing message with
  | zero => exact ofEnding .hung
  | succ level ih =>
    exact (settle ih level message).bind fun outcome => (enter _).bind fun _ => pure outcome

theorem dispatchUpdate (depth : Nat) (update : Update) :
    Faithful _ (Processor.dispatchUpdate depth update) := by
  refine (enter _).bind fun _ => ?_
  cases update.message? with
  | some message => exact dispatch depth message
  | none => exact (log _).bind fun _ => pure _

theorem dispatchBatch (depth : Nat) (updates : List Update) :
    Faithful _ (Processor.dispatchBatch depth updates) := by
  induction updates with
  | nil => exact pure []
  | cons update updates ih =>
    exact (dispatchUpdate depth update).bind fun _ => ih.bind fun _ => pure _

end Engine

end Action.Faithful

end ChatDispatch
