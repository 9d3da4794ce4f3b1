import ChatDispatch.Proofs.Binding.Parameters
import ChatDispatch.Proofs.Dispatch.Course

/-!
The faults that dispatches end in. The words of a message could not be bound to the parameters of
the command it names, or a requirement on the command was not met, or the command was invoked and
failed; the stage of the fault tells which. What converters, validators and handlers report is never
passed on as it is: it is wrapped in a fault that says what was being done.
-/

namespace ChatDispatch

def Fault.isOfJudging : Fault → Bool
  | .noValidator _ | .validationInvocation .. | .failedValidation .. => true
  | _ => false

theorem Fault.stage_of_isOfJudging {fault : Fault} (h : fault.isOfJudging = true) :
    fault.stage = .validation := by
  cases fault <;> first | rfl | cases h

theorem Fault.stage_of_isHandlerFailure {fault : Fault} (h : fault.isHandlerFailure = true) :
    fault.stage = .handler := by
  cases fault <;> first | rfl | cases h

/-- What a validator reports is wrapped with the type of the requirement. -/
theorem ValidatorRegistry.fault_of_validate {validators : ValidatorRegistry} {requirement : Value}
    {message : Message} {arguments : Arguments} {fault : Fault}
    (h : (validators.validate requirement message arguments).1 = .returned (.error fault)) :
    fault.isOfJudging = true := by
  unfold validate at h
  split at h
  · cases h
    rfl
  · obtain ⟨result, _, hfault⟩ := Ending.map_eq_returned_iff.mp h
    cases result with
    | ok answer => cases hfault
    | error cause =>
      cases hfault
      rfl

/-- A handler's failure is reported so: by the report that the handler itself has ended with, or,
where the factory or the handler has panicked, by one text that holds the text of the panic. -/
def Cause.Reports (cause : Cause) : Ending (Except Cause Unit) → Prop
  | .returned result => result = .error cause
  | .panicked (.text text) => cause.chain = ["handler panicked: " ++ text]
  | .panicked .other => cause.chain = ["handler panicked: non-string panic payload"]
  | .hung => False

namespace Processor

variable {level : Nat} {nested : Message → Action Outcome} {message : Message}
  {arguments : Arguments} {descriptor : Descriptor} {p : Processor}

/-- Whatever faults validators report, judging stops with one of its own. -/
theorem fault_of_judgeAll {command : String} {requirements : List Value} {fault : Fault}
    (h : (judgeAll level command message arguments requirements p).ending =
      .returned (.error fault)) : fault.isOfJudging = true := by
  induction requirements with
  | nil => cases h
  | cons requirement rest ih =>
    rw [judgeAll] at h
    obtain ⟨result, hjudge, hrest, _⟩ := Action.exists_of_bind_returned h
    cases result with
    | error other =>
      cases hrest
      exact ValidatorRegistry.fault_of_validate hjudge
    | ok answer =>
      cases answer with
      | true => exact ih hrest
      | false =>
        cases hrest
        rfl

theorem stage_of_not_bound {fault : Fault}
    (h : Binding.arguments (p.call level message) descriptor.name descriptor.parameters =
      .returned (.error fault)) : fault.stage = .parse :=
  Fault.stage_of_isOfBinding (Binding.fault_of_arguments h)

theorem stage_of_judgeAll {command : String} {requirements : List Value} {fault : Fault}
    (h : (judgeAll level command message arguments requirements p).ending =
      .returned (.error fault)) : fault.stage = .validation :=
  Fault.stage_of_isOfJudging (fault_of_judgeAll h)

/-- A report of a panic is one text. -/
theorem reports_of_work {cause : Cause}
    (h : work nested descriptor arguments p = .returned (.error cause) ∨
      ∃ panic, work nested descriptor arguments p = .panicked panic ∧ cause = panicCause panic) :
    cause.Reports (work nested descriptor arguments p) := by
  rcases h with hfailed | ⟨panic, hpanicked, rfl⟩
  · rw [hfailed]
    rfl
  · rw [hpanicked]
    cases panic <;> rfl

inductive Failing (level : Nat) (nested : Message → Action Outcome) (descriptor : Descriptor)
    (message : Message) (p : Processor) : Fault → Prop
  | unbound {fault : Fault}
      (hbound : Binding.arguments (p.call level message) descriptor.name descriptor.parameters =
        .returned (.error fault)) :
      Failing level nested descriptor message p fault
  | refused {arguments : Arguments} {fault : Fault}
      (hbound : Binding.arguments (p.call level message) descriptor.name descriptor.parameters =
        .returned (.ok arguments))
      (hjudged : (judgeAll level descriptor.name message arguments
        descriptor.allRequirements p).ending = .returned (.error fault)) :
      Failing level nested descriptor message p fault
  | invoked {arguments : Arguments} {cause : Cause}
      (hbound : Binding.arguments (p.call level message) descriptor.name descriptor.parameters =
        .returned (.ok arguments))
      (haccepted : ∀ r ∈ descriptor.allRequirements, p.validators.Accepts message arguments r)
      (hcause : cause.Reports (work nested descriptor arguments p)) :
      Failing level nested descriptor message p
        (.handlerInvocation descriptor.name descriptor.owner descriptor.method cause)

/-- Judging does not stop at requirements that are all met. -/
theorem judgeAll_ne_error {command : String} {requirements : List Value} {fault : Fault}
    (haccepted : ∀ r ∈ requirements, p.validators.Accepts message arguments r) :
    (judgeAll level command message arguments requirements p).ending ≠
      .returned (.error fault) := by
  have hok := (judgeAll_spec level command message arguments p requirements).2.2.mpr haccepted
  rw [hok]
  simp

namespace Failing

variable {fault : Fault}

theorem kind (h : Failing level nested descriptor message p fault) :
    fault.isOfBinding ∨ fault.isOfJudging ∨ fault.isHandlerFailure := by
  cases h with
  | unbound hbound => exact .inl (Binding.fault_of_arguments hbound)
  | refused hbound hjudged => exact .inr (.inl (fault_of_judgeAll hjudged))
  | invoked hbound haccepted hcause => exact .inr (.inr rfl)

theorem parse_iff (h : Failing level nested descriptor message p fault) :
    fault.stage = .parse ↔
      ∃ other, Binding.arguments (p.call level message) descriptor.name descriptor.parameters =
        .returned (.error other) := by
  cases h with
  | unbound hbound =>
    exact iff_of_true (stage_of_not_bound hbound) ⟨_, hbound⟩
  | refused hbound hjudged =>
    rw [stage_of_judgeAll hjudged, hbound]
    simp
  | invoked hbound haccepted hcause =>
    rw [hbound]
    simp [Fault.stage]

theorem validation_iff (h : Failing level nested descriptor message p fault) :
    fault.stage = .validation ↔
      ∃ arguments other,
        Binding.arguments (p.call level message) descriptor.name descriptor.parameters =
          .returned (.ok arguments) ∧
        (judgeAll level descriptor.name message arguments descriptor.allRequirements p).ending =
          .returned (.error other) := by
  cases h with
  | unbound hbound =>
    rw [stage_of_not_bound hbound, hbound]
    simp
  | refused hbound hjudged =>
    exact iff_of_true (stage_of_judgeAll hjudged) ⟨_, _, hbound, hjudged⟩
  | invoked hbound haccepted hcause =>
    rw [hbound]
    refine iff_of_false nofun ?_
    rintro ⟨arguments, other, heq, hjudged⟩
    cases heq
    exact judgeAll_ne_error haccepted hjudged

theorem handler_iff (h : Failing level nested descriptor message p fault) :
    fault.stage = .handler ↔
      ∃ arguments,
        Binding.arguments (p.call level message) descriptor.name descriptor.parameters =
          .returned (.ok arguments) ∧
        ∀ r ∈ descriptor.allRequirements, p.validators.Accepts message arguments r := by
  cases h with
  | unbound hbound =>
    rw [stage_of_not_bound hbound, hbound]
    simp
  | refused hbound hjudged =>
    rw [stage_of_judgeAll hjudged, hbound]
    refine iff_of_false nofun ?_
    rintro ⟨arguments, heq, haccepted⟩
    cases heq
    exact judgeAll_ne_error haccepted hjudged
  | invoked hbound haccepted hcause => exact iff_of_true rfl ⟨_, hbound, haccepted⟩

/-- The fault of an invocation says which command it was, and how its handler has ended. -/
theorem of_isHandlerFailure (h : Failing level nested descriptor message p fault)
    (hhandler : fault.isHandlerFailure = true) :
    ∃ arguments cause,
      Binding.arguments (p.call level message) descriptor.name descriptor.parameters =
        .returned (.ok arguments) ∧
      fault = .handlerInvocation descriptor.name descriptor.owner descriptor.method cause ∧
      cause.Reports (work nested descriptor arguments p) := by
  have hstage := Fault.stage_of_isHandlerFailure hhandler
  cases h with
  | unbound hbound =>
    rw [stage_of_not_bound hbound] at hstage
    cases hstage
  | refused hbound hjudged =>
    rw [stage_of_judgeAll hjudged] at hstage
    cases hstage
  | invoked hbound haccepted hcause => exact ⟨_, _, hbound, rfl, hcause⟩

end Failing

theorem Executed.failing {run : Run (Except Fault Unit)} {fault : Fault}
    (h : Executed level nested descriptor message p run)
    (hresult : run.ending = .returned (.error fault)) :
    Failing level nested descriptor message p fault := by
  cases h with
  | unbound hbound hbefore =>
    cases hresult
    exact .unbound hbound
  | refused hbound hjudged hbefore =>
    cases hresult
    exact .refused hbound hjudged
  | broken hending hbefore => exact absurd hresult (hending _)
  | invoked hbound haccepted hbefore =>
    obtain ⟨cause, rfl, hcause⟩ := fault_of_invoke hresult
    exact .invoked hbound haccepted (reports_of_work hcause)

/-- A dispatch fails in the run of the command that its message names. -/
theorem failing_of_dispatch {failure : Failure}
    (h : (dispatch (level + 1) message p).ending = .returned (.failed failure)) :
    ∃ descriptor, p.command? message = some descriptor ∧
      Failing level (dispatch level) descriptor message p failure.fault := by
  have hcourse := dispatch_course level message p
  generalize dispatch (level + 1) message p = run at h hcourse
  cases hcourse with
  | ignored hcommand hrecord => cases h
  | broken hcommand hrun hending => exact absurd h (hending _)
  | @finished name descriptor result executed hname hcommand hrun hresult =>
    have hcases := execute_cases level (dispatch level) descriptor message p
    rw [hrun] at hcases
    cases result with
    | ok done => cases h
    | error fault =>
      cases h
      exact ⟨descriptor, hcommand, hcases.failing hresult⟩

/-- Where all requirements on a command are met, its factory is called. -/
theorem built_mem_callsAt_dispatch (hbinds : p.Binds level message descriptor arguments)
    (haccepted : ∀ r ∈ descriptor.allRequirements, p.validators.Accepts message arguments r) :
    .built descriptor.owner ∈ callsAt level (dispatch (level + 1) message p).journal := by
  have hnested := (Action.closed_adds level fun _ => id).dispatch level (Nat.le_refl level)
  obtain ⟨judged, invoked, hcalls, _, hinvoked, _⟩ := callsAt_execute_of_bound hnested hbinds.2
  rw [callsAt_dispatch, hbinds.1]
  dsimp only
  rw [hcalls, hinvoked haccepted]
  simp [Descriptor.invocation]

/-- A dispatch that fails. The stage of its fault is that of parsing exactly where the words could
not be bound, that of validation exactly where they could and judging has stopped, and that of the
handler exactly where all requirements are met and the factory is called. The fault is one of those
that binding, judging and invoking have of their own. The fault of an invocation names the command,
and wraps the report of how its handler has ended. -/
theorem stage_of_dispatch_failed {failure : Failure}
    (h : (dispatch (level + 1) message p).ending = .returned (.failed failure)) :
    ∃ descriptor, p.command? message = some descriptor ∧
      (failure.fault.stage = .parse ↔
        ∃ fault, Binding.arguments (p.call level message) descriptor.name descriptor.parameters =
          .returned (.error fault)) ∧
      (failure.fault.stage = .validation ↔
        ∃ arguments fault, p.Binds level message descriptor arguments ∧
          (judgeAll level descriptor.name message arguments descriptor.allRequirements p).ending =
            .returned (.error fault)) ∧
      (failure.fault.stage = .handler ↔
        ∃ arguments, p.Binds level message descriptor arguments ∧
          (∀ r ∈ descriptor.allRequirements, p.validators.Accepts message arguments r) ∧
          .built descriptor.owner ∈ callsAt level (dispatch (level + 1) message p).journal) ∧
      (failure.fault.isOfBinding ∨ failure.fault.isOfJudging ∨ failure.fault.isHandlerFailure) ∧
      (failure.fault.isHandlerFailure →
        ∃ arguments cause, p.Binds level message descriptor arguments ∧
          failure.fault = .handlerInvocation descriptor.name descriptor.owner descriptor.method
            cause ∧
          cause.Reports (work (dispatch level) descriptor arguments p)) := by
  obtain ⟨descriptor, hcommand, hfailing⟩ := failing_of_dispatch h
  refine ⟨descriptor, hcommand, hfailing.parse_iff, ?_, ?_, hfailing.kind, fun hhandler => ?_⟩
  · rw [hfailing.validation_iff]
    constructor
    · rintro ⟨arguments, fault, hbound, hjudged⟩
      exact ⟨arguments, fault, ⟨hcommand, hbound⟩, hjudged⟩
    · rintro ⟨arguments, fault, hbinds, hjudged⟩
      exact ⟨arguments, fault, hbinds.2, hjudged⟩
  · rw [hfailing.handler_iff]
    constructor
    · rintro ⟨arguments, hbound, haccepted⟩
      have hbinds : p.Binds level message descriptor arguments := ⟨hcommand, hbound⟩
      exact ⟨arguments, hbinds, haccepted, built_mem_callsAt_dispatch hbinds haccepted⟩
    · rintro ⟨arguments, hbinds, haccepted, _⟩
      exact ⟨arguments, hbinds.2, haccepted⟩
  · obtain ⟨arguments, cause, hbound, hfault, hcause⟩ := hfailing.of_isHandlerFailure hhandler
    exact ⟨arguments, cause, ⟨hcommand, hbound⟩, hfault, hcause⟩

def mistakenModule : Module Program where
  owner := "Mistaken"
  methods := [{
    name := "ping"
    command := some "ping"
    parameters := [.message, .client]
    body := fun arguments => .given (arguments.message 1) fun _ => .done }]

/-- The fault that the handler was given stands below that of the dispatch. -/
theorem causes_of_mistaken_ping :
    ∃ failure, (dispatch 1 pingMessage (serving mistakenModule)).ending =
        .returned (.failed failure) ∧
      failure.fault.stage = .handler ∧ failure.fault.causes = ["argument 1 is not a Message"] ∧
      ∃ descriptor arguments, (serving mistakenModule).Binds 0 pingMessage descriptor arguments ∧
        .built descriptor.owner ∈
          callsAt 0 (dispatch 1 pingMessage (serving mistakenModule)).journal := by
  have hfailed : (dispatch 1 pingMessage (serving mistakenModule)).ending =
      .returned (.failed ⟨"/ping", .handlerInvocation "ping" "Mistaken" "ping"
        (Fault.argumentMismatch 1 .message).report⟩) := by rfl
  obtain ⟨descriptor, _, _, _, hhandler, _⟩ := stage_of_dispatch_failed hfailed
  obtain ⟨arguments, hbinds, _, hbuilt⟩ := hhandler.mp rfl
  exact ⟨_, hfailed, rfl, rfl, descriptor, arguments, hbinds, hbuilt⟩

end Processor

end ChatDispatch
