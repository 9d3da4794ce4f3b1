import ChatDispatch.Dispatch
import ChatDispatch.Proofs.Run

/-!
Handlers are put together from few kinds of effects. A property of actions that the effects have and
that sequences keep is a property of every handler; the induction over handlers is done here once.
What handlers register is logged with records of registrations only.
-/

namespace ChatDispatch

def LogRecord.isOfRegistration : LogRecord → Bool
  | methodSkipped .. | moduleRegistered .. | moduleRejected .. | converterReplaced ..
  | optionalKept .. | validatorReplaced .. => true
  | _ => false

theorem CommandRegistry.collect_isOfRegistration (registry : CommandRegistry)
    (module : Module Program) (pending : List Descriptor) (methods : List (Method Program)) :
    ∀ record ∈ (registry.collect module pending methods).2, record.isOfRegistration := by
  fun_induction registry.collect module pending methods with
  | case1 => simp
  | case2 pending method methods hname result log hrest ih =>
    intro record hmem
    rcases List.mem_cons.mp hmem with rfl | hmem
    · rfl
    · exact ih record (by rw [hrest]; exact hmem)
  | case3 => simp
  | case4 pending method methods name hname hfree ih => exact ih

theorem CommandRegistry.scanLog_isOfRegistration (registry : CommandRegistry)
    (module : Module Program) :
    ∀ record ∈ registry.scanLog module, record.isOfRegistration := by
  have hcollect := registry.collect_isOfRegistration module [] module.methods
  intro record hmem
  unfold CommandRegistry.scanLog at hmem
  split at hmem
  next result log hlog =>
    rw [hlog] at hcollect
    split at hmem
    · rcases List.mem_append.mp hmem with hmem | hmem
      · exact hcollect record hmem
      · rw [List.mem_singleton.mp hmem]
        rfl
    · exact hcollect record hmem

theorem ConverterRegistry.registrationLog_isOfRegistration (registry : ConverterRegistry)
    (converter : Converter) :
    ∀ record ∈ registry.registrationLog converter, record.isOfRegistration := by
  intro record hmem
  simp only [ConverterRegistry.registrationLog, List.mem_append, List.mem_ite_nil_right,
    List.mem_singleton] at hmem
  rcases hmem with ⟨_, rfl⟩ | ⟨_, rfl⟩ <;> rfl

theorem ValidatorRegistry.registrationLog_isOfRegistration (registry : ValidatorRegistry)
    (validator : Validator) :
    ∀ record ∈ registry.registrationLog validator, record.isOfRegistration := by
  intro record hmem
  simp only [ValidatorRegistry.registrationLog, List.mem_ite_nil_right, List.mem_singleton] at hmem
  obtain ⟨_, rfl⟩ := hmem
  rfl

/-- A property of actions that the effects of handlers and all ends of handlers have, and that is
not lost in sequences. -/
structure Handling (C : ∀ α : Type, Action α → Prop) : Prop where
  bind : ∀ {α β : Type} {action : Action α} {next : α → Action β},
    C α action → (∀ value, C β (next value)) → C β (action >>= next)
  ofEnding : ∀ {α : Type} (ending : Ending α), C α (Action.ofEnding ending)
  note : ∀ entry, C Unit (Action.enter (.noted entry))
  reply : ∀ client peer text, C _ (Processor.reply client peer text)
  sleep : ∀ milliseconds, C Unit (Processor.sleep milliseconds)
  signal : ∀ signal, C Unit (Processor.signal signal)
  scan : ∀ module, C _ (Processor.scan module)
  addConverter : ∀ converter, C Unit (Processor.addConverter converter)
  addValidator : ∀ validator, C Unit (Processor.addValidator validator)
  observe : ∀ observer, C Unit (Processor.observe observer)

/-- A handler at work, where the messages that it dispatches itself have the property. -/
theorem Handling.run {C : ∀ α : Type, Action α → Prop} (h : Handling C)
    {nested : Message → Action Outcome} (hnested : ∀ message, C _ (nested message))
    (program : Program) : C _ (program.run nested) := by
  induction program using Program.run.induct with
  | case1 => exact h.ofEnding _
  | case2 cause => exact h.ofEnding _
  | case3 payload => exact h.ofEnding _
  | case4 entry next ih => exact h.bind (h.note entry) fun _ => ih
  | case5 client peer text next ih => exact h.bind (h.reply client peer text) ih
  | case6 milliseconds next ih => exact h.bind (h.sleep milliseconds) fun _ => ih
  | case7 sent next ih => exact h.bind (h.signal sent) fun _ => ih
  | case8 message next ih => exact h.bind (hnested message) ih
  | case9 module next ih => exact h.bind (h.scan module) ih
  | case10 converter next ih => exact h.bind (h.addConverter converter) fun _ => ih
  | case11 validator next ih => exact h.bind (h.addValidator validator) fun _ => ih
  | case12 observer next ih => exact h.bind (h.observe observer) fun _ => ih

end ChatDispatch
