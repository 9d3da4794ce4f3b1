import ChatDispatch.Demo.Basics
import ChatDispatch.Proofs.Binding.Reading
import ChatDispatch.Proofs.Binding.Refusals
import ChatDispatch.Proofs.Dispatch.Replies
import ChatDispatch.Proofs.Registration.Scans

/-!
A processor that serves the basic commands. Each of the handlers reads its arguments as they are
declared, and then does nothing, fails, or ends with one reply to the message. So every dispatch
comes to an outcome, leaves the processor as it is, and replies at most once.
-/

namespace ChatDispatch

namespace ConverterRegistry

variable {registry : ConverterRegistry} {converter found : Converter} {type : ValueType}

/-- What is found behind a registration is registered by it, or was there before. -/
theorem lookup_register_cases (h : (registry.register converter).lookup type = some found) :
    found = converter ∨ found = .optional converter.target ∨ registry.lookup type = some found := by
  rw [lookup_register] at h
  split at h
  · exact .inl (Option.some.inj h).symm
  · split at h
    · exact .inr (.inl (Option.some.inj h).symm)
    · exact .inr (.inr h)

theorem lookup_builtin (h : builtin.lookup type = some found) :
    found = .text ∨ found = .int32 ∨
      ∃ inner, found = .optional inner ∧ (inner = .text ∨ inner = .int32) := by
  rcases lookup_register_cases h with rfl | rfl | hearlier
  · exact .inr (.inl rfl)
  · exact .inr (.inr ⟨.int32, rfl, .inr rfl⟩)
  · rcases lookup_register_cases hearlier with rfl | rfl | hempty
    · exact .inl rfl
    · exact .inr (.inr ⟨.text, rfl, .inl rfl⟩)
    · cases hempty

theorem typed_builtin : builtin.Typed := (typed_empty.register .text).register .int32

/-- The derived converter comes to a result if the one that it asks does. -/
theorem optional_returns {context : Context} {inner : ValueType}
    (h : ∀ attempt word, context.lookup inner = some attempt →
      ∃ result, attempt word = .returned result) (word : String) :
    ∃ result, (Converter.optional inner).attempt context word = .returned result := by
  unfold Converter.attempt Converter.optional
  dsimp only
  split
  · exact ⟨_, rfl⟩
  · split
    · exact ⟨_, rfl⟩
    next attempt hlookup =>
      obtain ⟨result, hresult⟩ := h attempt word hlookup
      rw [hresult]
      exact ⟨_, rfl⟩

/-- The builtin converters come to a result if they may ask for another once. -/
theorem builtin_returns (h : builtin.lookup type = some converter) (line : String) (depth : Nat)
    (word : String) :
    ∃ result, converter.attempt (builtin.context line (depth + 1)) word = .returned result := by
  rcases lookup_builtin h with rfl | rfl | ⟨inner, rfl, hinner⟩
  · exact ⟨_, rfl⟩
  · exact ⟨_, rfl⟩
  · refine optional_returns (fun attempt word hattempt => ?_) word
    rcases hinner with rfl | rfl
    · obtain rfl := Option.some.inj hattempt
      exact ⟨_, rfl⟩
    · obtain rfl := Option.some.inj hattempt
      exact ⟨_, rfl⟩

end ConverterRegistry

/-- A validator checks the content of a requirement of its own type. -/
theorem Validator.judge_mk (validator : Validator) (content : validator.requirement.Carrier)
    {message : Message} {arguments : Arguments} :
    validator.judge ⟨validator.requirement, content⟩ message arguments =
      validator.check content message arguments := by
  rw [judge, Value.as?_mk]

namespace Binding

variable {call : Call} {command : String} {parameters : List Parameter}

/-- With the builtin converters binding comes to a result. -/
theorem arguments_return (hconverters : call.converters = .builtin) {depth : Nat}
    (hdepth : call.depth = depth + 1) :
    ∃ bound, arguments call command parameters = .returned bound := by
  have hattempt : ∀ {type word tried}, ComesTo call parameters type word tried →
      ∃ result, tried = .returned result := by
    rintro type word tried ⟨_, _, _, _, _, _, _, _, converter, hlookup, rfl⟩
    rw [hconverters] at hlookup ⊢
    rw [hdepth]
    exact ConverterRegistry.builtin_returns hlookup call.line depth word
  cases harguments : arguments call command parameters with
  | returned bound => exact ⟨bound, rfl⟩
  | panicked panic =>
    obtain ⟨-, type, word, hcomes⟩ := (eq_panicked_iff call command parameters).mp harguments
    obtain ⟨result, hresult⟩ := hattempt hcomes
    cases hresult
  | hung =>
    obtain ⟨-, type, word, hcomes⟩ := (eq_hung_iff call command parameters).mp harguments
    obtain ⟨result, hresult⟩ := hattempt hcomes
    cases hresult

/-- Where words are bound, every argument is read as its parameter declares it. -/
theorem readsBack_of_arguments (htyped : call.converters.Typed) {all : Arguments}
    (h : arguments call command parameters = .returned (.ok all)) {index : Nat}
    {parameter : Parameter} (hparameter : parameters[index]? = some parameter) :
    all.ReadsBack call index parameter.kind := by
  obtain ⟨argument, left, hget, hone⟩ := (handed_of_arguments h).getElem? hparameter
  exact readsBack_of_bindOne htyped hget hone

end Binding

namespace Arguments.ReadsBack

variable {arguments : Arguments} {call : Binding.Call} {index : Nat}

theorem exists_text (h : arguments.ReadsBack call index .remaining) :
    ∃ text, arguments.text index = .ok text := by
  rcases h with hnone | ⟨text, -, hsome⟩
  · exact ⟨none, hnone⟩
  · exact ⟨some text, hsome⟩

theorem exists_int32 (h : arguments.ReadsBack call index (.converted .int32)) :
    ∃ n, arguments.int32 index = .ok n := by
  rcases h with ⟨-, hnone⟩ | ⟨content, -, hyields⟩
  · exact ⟨none, hnone .int32⟩
  · exact ⟨some content, hyields.own⟩

theorem exists_flattened (h : arguments.ReadsBack call index (.converted (.optional .int32))) :
    ∃ n, arguments.int32 index = .ok n := by
  rcases h with ⟨-, hnone⟩ | ⟨content, -, hyields⟩
  · exact ⟨none, hnone .int32⟩
  · exact ⟨content, hyields.inner .int32 content rfl⟩

end Arguments.ReadsBack

namespace Demo

open Program

def processor (home : String) (observers : List Nat) (clock : Clock) : Processor :=
  { (register home (Processor.new {} .memory)).after with observers, clock }

/-- What a handler of the module does once it has read its arguments: nothing, a failure, or a reply
to the message. -/
inductive Answers (message : Message) : Program → Prop
  | silent : Answers message .done
  | refusing (cause : Cause) : Answers message (.fail cause)
  | replying (text : String) : Answers message (answer .memory message.peer text)

/-- A run comes to a value and leaves the state as it is. It replies at most once, to the message,
and not at all if its value is no success. -/
structure Serves {α : Type} (message : Message) (success : α → Prop) (p : Processor)
    (run : Run α) : Prop where
  after : run.after = p
  returned : ∃ value, run.ending = .returned value ∧
    (replies run.journal = [] ∨
      success value ∧ ∃ text, replies run.journal = [(message.peer, text)])

variable {home : String} {observers : List Nat} {clock : Clock} {level : Nat} {message : Message}
  {nested : Message → Action Outcome} {p : Processor} {program : Program} {name : String}
  {descriptor : Descriptor} {arguments : Arguments}

theorem given_ok {α : Type} (value : α) (next : α → Program) :
    given (.ok value) next = next value := rfl

theorem run_answer (nested : Message → Action Outcome) (peer : Int) (text : String)
    (p : Processor) :
    (answer .memory peer text).run nested p = ⟨.returned (.ok ()), p, [.replied peer text]⟩ := rfl

theorem Answers.serves (h : Answers message program) (nested : Message → Action Outcome)
    (p : Processor) : Serves message (· = .ok ()) p (program.run nested p) := by
  cases h with
  | silent => exact ⟨rfl, .ok (), rfl, .inl rfl⟩
  | refusing cause => exact ⟨rfl, .error cause, rfl, .inl rfl⟩
  | replying text =>
    rw [run_answer]
    exact ⟨rfl, .ok (), rfl, .inr ⟨rfl, text, rfl⟩⟩

/-- A run that makes something of the value of another, and changes and replies nothing else. -/
theorem Serves.map {α β : Type} {success : α → Prop} {other : β → Prop} {first : Run α}
    {second : Run β} (h : Serves message success p first) (f : α → β)
    (hending : ∀ value, first.ending = .returned value → second.ending = .returned (f value))
    (hafter : second.after = first.after)
    (hreplies : replies second.journal = replies first.journal)
    (hsuccess : ∀ value, success value → other (f value)) : Serves message other p second := by
  obtain ⟨hsame, value, hvalue, hanswer⟩ := h
  refine ⟨hafter.trans hsame, f value, hending value hvalue, ?_⟩
  rw [hreplies]
  rcases hanswer with hnone | ⟨hvalue, htext⟩
  · exact .inl hnone
  · exact .inr ⟨hsuccess value hvalue, htext⟩

section Commands

/-- What is found under a name is the command of a method of the module. -/
theorem exists_method (h : (processor home observers clock).commands.resolve name =
    some descriptor) :
    ∃ method ∈ methods home catalog, descriptor = .ofMethod (basics home) method name := by
  have hscanned := Processor.scan_scanned (basics home)
    (Processor.addValidator (rangeValidator home) (Processor.new {} .memory)).after
  rcases hscanned.resolve_cases h with hbefore | ⟨method, hmethod, -, rfl⟩
  · cases hbefore
  · exact ⟨method, hmethod, rfl⟩

/-- The handlers of the module can read all their arguments. -/
theorem answers_of_bound {method : Method Program} (hmethod : method ∈ methods home catalog)
    (hbound : Binding.arguments ((processor home observers clock).call level message) name
      method.parameters = .returned (.ok arguments)) :
    Answers message (method.body arguments) := by
  have hreads := @Binding.readsBack_of_arguments _ _ _ ConverterRegistry.typed_builtin _ hbound
  simp only [methods, List.mem_cons, List.not_mem_nil, or_false] at hmethod
  rcases hmethod with rfl | rfl | rfl | rfl | rfl
  · have hmessage : arguments.message 0 = .ok message := @hreads 0 _ rfl
    have hclient : arguments.client 1 = .ok .memory := @hreads 1 _ rfl
    simp only [Demo.method, help, hmessage, hclient, given_ok]
    exact .replying _
  · obtain ⟨text, htext⟩ := Arguments.ReadsBack.exists_text (@hreads 0 _ rfl)
    have hmessage : arguments.message 1 = .ok message := @hreads 1 _ rfl
    have hclient : arguments.client 2 = .ok .memory := @hreads 2 _ rfl
    simp only [Demo.method, echo, htext, hmessage, hclient, given_ok]
    exact .replying _
  · obtain ⟨a, ha⟩ := Arguments.ReadsBack.exists_int32 (@hreads 0 _ rfl)
    obtain ⟨b, hb⟩ := Arguments.ReadsBack.exists_int32 (@hreads 1 _ rfl)
    have hmessage : arguments.message 2 = .ok message := @hreads 2 _ rfl
    have hclient : arguments.client 3 = .ok .memory := @hreads 3 _ rfl
    simp only [Demo.method, sum, ha, hb, hmessage, hclient, given_ok]
    split
    · exact .refusing _
    · exact .replying _
  · obtain ⟨count, hcount⟩ := Arguments.ReadsBack.exists_flattened (@hreads 0 _ rfl)
    obtain ⟨text, htext⟩ := Arguments.ReadsBack.exists_text (@hreads 1 _ rfl)
    have hmessage : arguments.message 2 = .ok message := @hreads 2 _ rfl
    have hclient : arguments.client 3 = .ok .memory := @hreads 3 _ rfl
    simp only [Demo.method, repetition, hcount, htext, hmessage, hclient, given_ok]
    split
    · exact .silent
    · exact .replying _
  · have hmessage : arguments.message 0 = .ok message := @hreads 0 _ rfl
    have hclient : arguments.client 1 = .ok .memory := @hreads 1 _ rfl
    simp only [Demo.method, whoami, hmessage, hclient, given_ok]
    exact .replying _

/-- The verdict on a range: a number has to lie in it, and one that is not there passes. -/
theorem validate_range (range : Range) (message : Message) (arguments : Arguments) :
    ((processor home observers clock).validators.validate (range.requirement home) message
      arguments).1 = .returned (match arguments.int32 range.index.toNat with
        | .error fault => .error (.validationInvocation (rangeType home) fault.report)
        | .ok none => .ok true
        | .ok (some n) => .ok (isBetween range.low range.high n)) := by
  have hlookup : (processor home observers clock).validators.lookup (rangeType home) =
      some (rangeValidator home) := if_pos rfl
  have hjudge : (rangeValidator home).judge (range.requirement home) message arguments =
      (rangeValidator home).check (range.index, range.low, range.high) message arguments :=
    Validator.judge_mk (rangeValidator home) (range.index, range.low, range.high)
  have htype : (range.requirement home).type = rangeType home := rfl
  unfold ValidatorRegistry.validate
  rw [htype, hlookup]
  dsimp only
  rw [hjudge]
  unfold rangeValidator
  dsimp only
  cases arguments.int32 range.index.toNat with
  | error fault => rfl
  | ok n => cases n <;> rfl

/-- A range is accepted unless there is a number that is not in it. -/
theorem accepts_range_iff {range : Range} {number : Option Int32}
    (h : arguments.int32 range.index.toNat = .ok number) :
    (processor home observers clock).validators.Accepts message arguments (range.requirement home) ↔
      ∀ n, number = some n → range.low.toInt ≤ n.toInt ∧ n.toInt ≤ range.high.toInt := by
  rw [ValidatorRegistry.accepts_iff_validate, validate_range, h]
  cases number with
  | none => simp
  | some n => simp [isBetween]

theorem validate_returns {method : Method Program} (hmethod : method ∈ methods home catalog)
    {requirement : Value} (hrequirement : requirement ∈
      (Descriptor.ofMethod (basics home) method name).allRequirements) (message : Message)
    (arguments : Arguments) :
    ∃ answer, ((processor home observers clock).validators.validate requirement message
      arguments).1 = .returned answer := by
  obtain ⟨range, rfl⟩ : ∃ range : Range, requirement = range.requirement home := by
    simp only [methods, List.mem_cons, List.not_mem_nil, or_false] at hmethod
    rcases hmethod with rfl | rfl | rfl | rfl | rfl <;>
      simp [Descriptor.allRequirements, Descriptor.ofMethod, Demo.method, Parameter.required,
        Parameter.converted, Parameter.remaining, Parameter.message,
        Parameter.client] at hrequirement
    exact ⟨⟨0, 1, 10⟩, hrequirement⟩
  exact ⟨_, validate_range range message arguments⟩

theorem invoke_serves (nested : Message → Action Outcome) {method : Method Program}
    (hmethod : method ∈ methods home catalog)
    (hbound : Binding.arguments ((processor home observers clock).call level message) name
      method.parameters = .returned (.ok arguments)) :
    Serves message (· = .ok ()) (processor home observers clock)
      (Processor.invoke level nested (.ofMethod (basics home) method name) arguments
        (processor home observers clock)) := by
  have hserves := (answers_of_bound hmethod hbound).serves nested (processor home observers clock)
  rw [Processor.invoke_of_built rfl]
  refine hserves.map (Except.mapError (.handlerInvocation name (basics home).owner method.name))
    (fun result hresult => ?_) rfl rfl fun result hdone => ?_
  · exact congrArg (Processor.invocationEnding (.ofMethod (basics home) method name)) hresult
  · rw [hdone]
    rfl

theorem execute_serves (level : Nat) (nested : Message → Action Outcome) (message : Message)
    (h : (processor home observers clock).commands.resolve name = some descriptor) :
    Serves message (· = .ok ()) (processor home observers clock)
      (Processor.execute (level + 1) nested descriptor message
        (processor home observers clock)) := by
  obtain ⟨method, hmethod, rfl⟩ := exists_method h
  obtain ⟨result, hresult⟩ : ∃ result, (Processor.execute (level + 1) nested
      (.ofMethod (basics home) method name) message (processor home observers clock)).ending =
        .returned result := by
    apply Processor.execute_returns
    · exact Binding.arguments_return rfl rfl
    · intro arguments hbound
      obtain ⟨-, result, hresult, -⟩ := invoke_serves nested hmethod hbound
      exact ⟨Processor.judgeAll_returns fun r hr => validate_returns hmethod hr message arguments,
        result, hresult⟩
  -- Every stage comes to a result, so of the cases the one that breaks off is left out.
  have hcases := Processor.execute_cases (level + 1) nested
    (.ofMethod (basics home) method name) message (processor home observers clock)
  generalize Processor.execute (level + 1) nested (.ofMethod (basics home) method name) message
    (processor home observers clock) = run at hcases hresult
  cases hcases with
  | unbound hbound hbefore => exact ⟨rfl, _, rfl, .inl (replies_of_isPreparation hbefore)⟩
  | refused hbound hjudged hbefore => exact ⟨rfl, _, rfl, .inl (replies_of_isPreparation hbefore)⟩
  | broken hending hbefore => exact absurd hresult (hending result)
  | invoked hbound haccepted hbefore =>
    refine (invoke_serves nested hmethod hbound).map id (fun _ hvalue => hvalue) rfl ?_ fun _ => id
    rw [replies_append, replies_of_isPreparation hbefore, List.nil_append]
    rfl

/-- A dispatch to the module comes to an outcome, leaves the processor as it is and replies at most
once. Two levels of depth are enough for that: no handler dispatches anything, and the converter of
an optional number asks for another once. -/
theorem dispatch_serves (level : Nat) (message : Message) (home : String) (observers : List Nat)
    (clock : Clock) :
    Serves message (·.isExecuted = true) (processor home observers clock)
      (Processor.dispatch (level + 2) message (processor home observers clock)) := by
  have hcourse := Processor.dispatch_course (level + 1) message (processor home observers clock)
  cases hcommand : (processor home observers clock).command? message with
  | none =>
    generalize Processor.dispatch (level + 1 + 1) message (processor home observers clock) = run
      at hcourse
    cases hcourse with
    | ignored _ hrecord => exact ⟨rfl, _, rfl, .inl rfl⟩
    | finished _ hother _ _ =>
      rw [hcommand] at hother
      cases hother
    | broken hother _ _ =>
      rw [hcommand] at hother
      cases hother
  | some descriptor =>
    obtain ⟨name, hname, hresolve⟩ := Option.bind_eq_some_iff.mp hcommand
    have hserves := execute_serves level (Processor.dispatch (level + 1)) message hresolve
    obtain ⟨result, hresult, -⟩ := hserves.returned
    obtain ⟨-, hafter, hreplies⟩ := Processor.dispatch_of_executed hname hresolve hresult
    refine hserves.map (Processor.outcomeOf name message) (fun _ hvalue =>
      (Processor.dispatch_of_executed hname hresolve hvalue).1) hafter hreplies fun _ hdone => ?_
    rw [hdone]
    rfl

/-- Whatever is dispatched to it in one go, the processor stays as it is. -/
theorem dispatchBatch_after (level : Nat) (updates : List Update) (home : String)
    (observers : List Nat) (clock : Clock) :
    (Processor.dispatchBatch (level + 2) updates (processor home observers clock)).after =
      processor home observers clock := by
  induction updates with
  | nil => rfl
  | cons update rest ih =>
    have hupdate : ∃ outcome, (Processor.dispatchUpdate (level + 2) update
        (processor home observers clock)).ending = .returned outcome ∧
        (Processor.dispatchUpdate (level + 2) update (processor home observers clock)).after =
          processor home observers clock := by
      cases hmessage : update.message? with
      | none =>
        rw [Processor.dispatchUpdate_of_none _ hmessage]
        exact ⟨_, rfl, rfl⟩
      | some message =>
        obtain ⟨hafter, outcome, hending, -⟩ := dispatch_serves level message home observers clock
        rw [Processor.dispatchUpdate_of_some _ hmessage]
        exact ⟨outcome, hending, hafter⟩
    obtain ⟨outcome, hending, hafter⟩ := hupdate
    rw [Processor.dispatchBatch, Action.bind_of_returned hending, hafter, Action.bind_pure_apply]
    exact ih

/-- So it makes no difference to a dispatch what has been dispatched before. -/
theorem dispatch_behind (level : Nat) (earlier : List Update) (message : Message) (home : String)
    (observers : List Nat) (clock : Clock) :
    Processor.dispatch (level + 2) message
        (Processor.dispatchBatch (level + 2) earlier (processor home observers clock)).after =
      Processor.dispatch (level + 2) message (processor home observers clock) :=
  congrArg (Processor.dispatch (level + 2) message)
    (dispatchBatch_after level earlier home observers clock)

end Commands

end Demo

end ChatDispatch
