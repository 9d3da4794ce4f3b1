import ChatDispatch.Proofs.Dispatch.Handlers

/-!
Dispatches are put together from few kinds of steps. A property of actions that these steps have
and that sequences and guards keep is a property of every dispatch; the induction over the depth of
nested dispatches is done here once. Its first use says which entries a dispatch can add to the
journal.
-/

namespace ChatDispatch

/-- A record of what a dispatch of a message does, and not of the loop around it. -/
def LogRecord.isOfDispatch : LogRecord → Bool
  | updateSkipped .. | listening .. | shuttingDown | cancelled | batchReceived .. | sourceClosed ..
  | fetchFailed .. | inputEnded | lineUndecoded .. => false
  | _ => true

def Entry.isStep : Entry → Bool
  | .logged record => record.isOfDispatch
  | .replied .. | .noted _ | .subscribed _ | .observed .. | .called .. | .concluded .. => true
  | _ => false

def Entry.IsBelow (depth : Nat) : Entry → Prop
  | .called level _ | .concluded level _ _ => level < depth
  | _ => True

def Entry.isSignal : Entry → Bool
  | .signalled _ | .expired _ => true
  | _ => false

/-- An entry that dispatches nested at most `depth` deep can add to the journal. -/
def Entry.IsOfDispatch (depth : Nat) (entry : Entry) : Prop :=
  (entry.isStep || entry.isSignal) = true ∧ entry.IsBelow depth

/-- A property of actions that the steps of dispatches have, and that is not lost in putting steps
together. What a step reads of the state, or changes in it, is not the clock, apart from sleeping
and signalling. -/
structure Closed (depth : Nat) (C : ∀ α : Type, Action α → Prop) : Prop where
  pure : ∀ {α : Type} (value : α), C α (pure value)
  bind : ∀ {α β : Type} {action : Action α} {next : α → Action β},
    C α action → (∀ value, C β (next value)) → C β (action >>= next)
  inspect : ∀ {β : Type} {next : Processor → Action β},
    (∀ p clock, next { p with clock } = next p) → (∀ p, C β (next p)) →
      C β (Action.state >>= next)
  change : ∀ {change : Processor → Processor},
    (∀ p clock, change { p with clock } = { change p with clock }) →
      C Unit (Action.update change)
  enterAll : ∀ {entries : List Entry},
    (∀ entry ∈ entries, entry.isStep = true ∧ entry.IsBelow depth) →
      C Unit (Action.enterAll entries)
  ofEnding : ∀ {α : Type} (ending : Ending α), C α (Action.ofEnding ending)
  guarded : ∀ {α : Type} {action : Action α}, C α action → C _ (Action.guarded action)
  sleep : ∀ milliseconds, C Unit (Processor.sleep milliseconds)
  signal : ∀ signal, C Unit (Processor.signal signal)

namespace Closed

variable {depth : Nat} {C : ∀ α : Type, Action α → Prop}

theorem enter (h : Closed depth C) {entry : Entry} (hstep : entry.isStep = true)
    (hbelow : entry.IsBelow depth) : C Unit (Action.enter entry) :=
  h.enterAll (List.forall_mem_singleton.mpr ⟨hstep, hbelow⟩)

theorem logAll (h : Closed depth C) {records : List LogRecord}
    (hr : ∀ record ∈ records, record.isOfDispatch) : C Unit (Action.logAll records) := by
  apply h.enterAll
  intro entry he
  obtain ⟨record, hmem, rfl⟩ := List.mem_map.mp he
  exact ⟨hr record hmem, trivial⟩

theorem log (h : Closed depth C) {record : LogRecord} (hr : record.isOfDispatch) :
    C Unit (Action.log record) :=
  h.enter hr trivial

theorem reply (h : Closed depth C) (client : Client) (peer : Int) (text : String) :
    C _ (Processor.reply client peer text) := by
  refine h.bind (h.logAll ?_) fun _ => ?_
  · intro record hmem
    split at hmem
    · rw [List.mem_singleton.mp hmem]
      rfl
    · cases hmem
  · cases client.refuses peer text with
    | some cause => exact h.pure _
    | none => exact h.bind (h.enter rfl trivial) fun _ => h.pure _

theorem isOfDispatch_of_isOfRegistration {record : LogRecord} (h : record.isOfRegistration) :
    record.isOfDispatch := by
  cases record <;> first | rfl | cases h

theorem scan (h : Closed depth C) (module : Module Program) : C _ (Processor.scan module) := by
  refine h.inspect (fun _ _ => rfl) fun p => h.bind (h.logAll ?_) fun _ => ?_
  · exact fun record hmem => isOfDispatch_of_isOfRegistration
      (p.commands.scanLog_isOfRegistration module record hmem)
  · cases p.commands.scan module with
    | ok found => exact h.bind (h.change fun _ _ => rfl) fun _ => h.pure _
    | error fault => exact h.bind (h.log rfl) fun _ => h.pure _

theorem addConverter (h : Closed depth C) (converter : Converter) :
    C _ (Processor.addConverter converter) := by
  refine h.inspect (fun _ _ => rfl) fun p => h.bind (h.logAll ?_) fun _ => h.change fun _ _ => rfl
  exact fun record hmem => isOfDispatch_of_isOfRegistration
    (p.converters.registrationLog_isOfRegistration converter record hmem)

theorem addValidator (h : Closed depth C) (validator : Validator) :
    C _ (Processor.addValidator validator) := by
  refine h.inspect (fun _ _ => rfl) fun p => h.bind (h.logAll ?_) fun _ => h.change fun _ _ => rfl
  exact fun record hmem => isOfDispatch_of_isOfRegistration
    (p.validators.registrationLog_isOfRegistration validator record hmem)

theorem observe (h : Closed depth C) (observer : Nat) : C _ (Processor.observe observer) :=
  h.bind (h.enter rfl trivial) fun _ => h.change fun _ _ => rfl

/-- The effects of handlers are such steps. -/
theorem handling (h : Closed depth C) : Handling C where
  bind := h.bind
  ofEnding := h.ofEnding
  note _ := h.enter rfl trivial
  reply := h.reply
  sleep := h.sleep
  signal := h.signal
  scan := h.scan
  addConverter := h.addConverter
  addValidator := h.addValidator
  observe := h.observe

theorem run (h : Closed depth C) {nested : Message → Action Outcome}
    (hnested : ∀ message, C _ (nested message)) (program : Program) :
    C _ (program.run nested) :=
  h.handling.run hnested program

section Engine

variable {level : Nat} {nested : Message → Action Outcome}

theorem judge (h : Closed depth C) (hlevel : level < depth) (message : Message)
    (arguments : Arguments) (requirement : Value) :
    C _ (Processor.judge level message arguments requirement) := by
  refine h.inspect (fun _ _ => rfl) fun p => h.bind (h.enterAll ?_) fun _ =>
    h.bind (h.enterAll ?_) fun _ => h.ofEnding _
  · intro entry hmem
    simp only [List.mem_ite_nil_right, List.mem_singleton] at hmem
    obtain ⟨_, rfl⟩ := hmem
    exact ⟨rfl, hlevel⟩
  · intro entry hmem
    obtain ⟨note, _, rfl⟩ := List.mem_map.mp hmem
    exact ⟨rfl, trivial⟩

theorem judgeAll (h : Closed depth C) (hlevel : level < depth) (command : String)
    (message : Message) (arguments : Arguments) (requirements : List Value) :
    C _ (Processor.judgeAll level command message arguments requirements) := by
  induction requirements with
  | nil => exact h.pure _
  | cons requirement rest ih =>
    refine h.bind (h.judge hlevel message arguments requirement) fun answer => ?_
    match answer with
    | .ok true => exact ih
    | .ok false => exact h.pure _
    | .error fault => exact h.pure _

theorem build (h : Closed depth C) (hlevel : level < depth) (descriptor : Descriptor) :
    C _ (Processor.build level descriptor) := by
  refine h.bind (h.enter rfl hlevel) fun _ => ?_
  cases descriptor.factory with
  | some panic => exact h.ofEnding _
  | none => exact h.pure _

theorem invoke (h : Closed depth C) (hlevel : level < depth)
    (hnested : ∀ message, C _ (nested message)) (descriptor : Descriptor)
    (arguments : Arguments) : C _ (Processor.invoke level nested descriptor arguments) := by
  refine h.bind (h.log rfl) fun _ => h.bind (h.guarded ?_) fun _ => h.pure _
  refine h.bind (h.build hlevel descriptor) fun _ => h.bind (h.enter rfl hlevel) fun _ => ?_
  exact h.run hnested (descriptor.body arguments)

theorem bindWords (h : Closed depth C) (level : Nat) (descriptor : Descriptor)
    (message : Message) : C _ (Processor.bindWords level descriptor message) := by
  refine h.inspect (fun _ _ => rfl) fun p => h.bind (h.logAll ?_) fun _ => h.ofEnding _
  intro record hmem
  obtain ⟨pair, _, rfl⟩ := List.mem_map.mp hmem
  rfl

theorem execute (h : Closed depth C) (hlevel : level < depth)
    (hnested : ∀ message, C _ (nested message)) (descriptor : Descriptor) (message : Message) :
    C _ (Processor.execute level nested descriptor message) := by
  refine h.bind (h.bindWords level descriptor message) fun bound => ?_
  cases bound with
  | error fault => exact h.pure _
  | ok arguments =>
    refine h.bind (h.judgeAll hlevel _ _ _ _) fun judged => ?_
    cases judged with
    | error fault => exact h.pure _
    | ok _ => exact h.invoke hlevel hnested descriptor arguments

theorem report (h : Closed depth C) (command : String) (peer : Int) (failure : Failure) :
    C _ (Processor.report command peer failure) := by
  refine h.bind (h.log rfl) fun _ => h.bind (h.log rfl) fun _ =>
    h.inspect (fun _ _ => rfl) fun p => h.enterAll ?_
  intro entry hmem
  obtain ⟨observer, _, rfl⟩ := List.mem_map.mp hmem
  exact ⟨rfl, trivial⟩

theorem perform (h : Closed depth C) (hlevel : level < depth)
    (hnested : ∀ message, C _ (nested message)) (descriptor : Descriptor) (name : String)
    (message : Message) : C _ (Processor.perform level nested descriptor name message) := by
  refine h.bind (h.execute hlevel hnested descriptor message) fun result => ?_
  cases result with
  | ok _ => exact h.bind (h.log rfl) fun _ => h.pure _
  | error fault => exact h.bind (h.report name message.peer _) fun _ => h.pure _

theorem settle (h : Closed depth C) (hlevel : level < depth)
    (hnested : ∀ message, C _ (nested message)) (message : Message) :
    C _ (Processor.settle level nested message) := by
  refine h.inspect (fun _ _ => rfl) fun p => ?_
  cases p.settings.detect? message.content with
  | none =>
    dsimp only
    exact h.bind (h.log rfl) fun _ => h.pure _
  | some name =>
    dsimp only
    cases p.commands.resolve name with
    | none => exact h.bind (h.log rfl) fun _ => h.pure _
    | some descriptor => exact h.perform hlevel hnested descriptor name message

/-- A dispatch has the property; the induction is on how deep dispatches may still be nested. -/
theorem dispatch (h : Closed depth C) (levels : Nat) (hle : levels ≤ depth) (message : Message) :
    C _ (Processor.dispatch levels message) := by
  induction levels generalizing message with
  | zero => exact h.ofEnding _
  | succ level ih =>
    have hnested : ∀ message, C _ (Processor.dispatch level message) := ih (by omega)
    refine h.bind (h.settle (by omega) hnested message) fun outcome => ?_
    have hlevel : level < depth := by omega
    exact h.bind (h.enter rfl hlevel) fun _ => h.pure _

/-- Dispatching updates has the property if taking and skipping one has it. -/
theorem dispatchBatch (h : Closed depth C)
    (htaken : ∀ update, C Unit (Action.enter (.taken update)))
    (hskipped : ∀ kind, C Unit (Action.log (.updateSkipped kind))) (updates : List Update) :
    C _ (Processor.dispatchBatch depth updates) := by
  induction updates with
  | nil => exact h.pure _
  | cons update rest ih =>
    refine h.bind (h.bind (htaken update) fun _ => ?_) fun outcome => h.bind ih fun _ => h.pure _
    cases update.message? with
    | some message => exact h.dispatch depth (Nat.le_refl depth) message
    | none => exact h.bind (hskipped update.kind) fun _ => h.pure _

end Engine

end Closed

def Action.Adds (P : Entry → Prop) (α : Type) (action : Action α) : Prop :=
  ∀ p, ∀ entry ∈ (action p).journal, P entry

namespace Action

variable {P : Entry → Prop} {α β : Type}

theorem Adds.bind {action : Action α} {next : α → Action β} (ha : Adds P α action)
    (hn : ∀ value, Adds P β (next value)) : Adds P β (action >>= next) := by
  intro p entry hmem
  rcases bind_cases action next p with ⟨value, _, hrun⟩ | ⟨_, _, hjournal⟩
  · rw [hrun] at hmem
    rcases List.mem_append.mp hmem with hmem | hmem
    · exact ha p entry hmem
    · exact hn value _ entry hmem
  · rw [hjournal] at hmem
    exact ha p entry hmem

theorem Adds.silent {action : Action α} (h : ∀ p, (action p).journal = []) : Adds P α action := by
  intro p entry hmem
  rw [h p] at hmem
  cases hmem

theorem Adds.pass (h : ∀ timer, P (.expired timer)) (wait : Clock → Clock.Waited) :
    Adds P _ (Processor.pass wait) := by
  intro p entry hmem
  rw [Processor.pass_apply] at hmem
  obtain ⟨timer, _, rfl⟩ := List.mem_map.mp hmem
  exact h timer

/-- The steps of dispatches add nothing but entries of dispatches. -/
theorem closed_adds (depth : Nat) (h : ∀ entry : Entry, entry.IsOfDispatch depth → P entry) :
    Closed depth (Adds P) where
  pure _ := Adds.silent fun _ => rfl
  bind ha hn := ha.bind hn
  inspect _ hn p := hn p p
  change _ := Adds.silent fun _ => rfl
  enterAll he _ entry hmem :=
    h entry ⟨Bool.or_eq_true_iff.mpr (.inl (he entry hmem).1), (he entry hmem).2⟩
  ofEnding _ := Adds.silent fun _ => rfl
  guarded ha := ha
  sleep milliseconds := by
    refine (Adds.pass (fun timer => h (.expired timer) ⟨rfl, trivial⟩) _).bind fun waitEnd => ?_
    split
    · exact Adds.silent fun _ => rfl
    · exact Adds.silent fun _ => rfl
  signal sent p entry hmem := by
    rw [List.mem_singleton.mp hmem]
    exact h (.signalled sent) ⟨rfl, trivial⟩

end Action

/-- What a dispatch adds to the journal is what dispatches do, and the calls and outcomes in it
are of levels below its own. -/
theorem Processor.isOfDispatch_of_mem_dispatch {depth : Nat} {message : Message} {p : Processor}
    {entry : Entry} (h : entry ∈ (dispatch depth message p).journal) :
    entry.IsOfDispatch depth :=
  (Action.closed_adds depth fun _ => id).dispatch depth (Nat.le_refl depth) message p entry h

end ChatDispatch
