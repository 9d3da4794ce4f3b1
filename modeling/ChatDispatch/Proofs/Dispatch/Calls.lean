import ChatDispatch.Proofs.Dispatch.Closure

/-!
Which foreign code a dispatch calls itself, apart from the dispatches nested in its handler. The
requirements are judged one by one up to the first that is not accepted; the factory is called, and
the handler entered, only behind a list of requirements that are all accepted. A factory that panics
keeps the handler from being entered.
-/

namespace ChatDispatch

/-- The calls in a journal that dispatches of this level have made themselves. -/
def callsAt (level : Nat) (journal : List Entry) : List ForeignCall :=
  journal.filterMap fun entry =>
    match entry with
    | .called l call => if l = level then some call else none
    | _ => none

def Processor.command? (p : Processor) (message : Message) : Option Descriptor :=
  (p.settings.detect? message.content).bind p.commands.resolve

def Processor.call (p : Processor) (level : Nat) (message : Message) : Binding.Call :=
  ⟨message.content, message, p.client, p.converters, level⟩

def Processor.Binds (p : Processor) (level : Nat) (message : Message) (descriptor : Descriptor)
    (arguments : Arguments) : Prop :=
  p.command? message = some descriptor ∧
    Binding.arguments (p.call level message) descriptor.name descriptor.parameters =
      .returned (.ok arguments)

def ValidatorRegistry.Accepts (validators : ValidatorRegistry) (message : Message)
    (arguments : Arguments) (requirement : Value) : Prop :=
  ∃ validator, validators.lookup requirement.type = some validator ∧
    (validator.judge requirement message arguments).answer = .returned (.ok true)

/-- Of a list of requirements, those that are judged: all of them if all are accepted, those up to
the first that its validator does not accept, or those before the first without a validator. -/
inductive Judged (validators : ValidatorRegistry) (message : Message) (arguments : Arguments) :
    List Value → List Value → Prop
  | all {requirements : List Value}
      (haccepted : ∀ r ∈ requirements, validators.Accepts message arguments r) :
      Judged validators message arguments requirements requirements
  | refused {before : List Value} {last : Value} {rest : List Value}
      (haccepted : ∀ r ∈ before, validators.Accepts message arguments r)
      (hvalidator : validators.contains last.type)
      (hrefused : ¬ validators.Accepts message arguments last) :
      Judged validators message arguments (before ++ last :: rest) (before ++ [last])
  | missing {before : List Value} {next : Value} {rest : List Value}
      (haccepted : ∀ r ∈ before, validators.Accepts message arguments r)
      (hmissing : validators.lookup next.type = none) :
      Judged validators message arguments (before ++ next :: rest) before

/-- The calls of an invocation: the factory, and the handler unless the factory panics. -/
def Descriptor.invocation (descriptor : Descriptor) : List ForeignCall :=
  .built descriptor.owner ::
    if descriptor.factory.isSome then [] else [.entered descriptor.name]

section Journal

variable {level : Nat} {α β : Type} {action : Action α} {next : α → Action β} {p : Processor}

theorem callsAt_append (first second : List Entry) :
    callsAt level (first ++ second) = callsAt level first ++ callsAt level second :=
  List.filterMap_append

theorem callsAt_eq_nil {journal : List Entry}
    (h : ∀ entry ∈ journal, entry.IsOfDispatch level) : callsAt level journal = [] := by
  apply List.filterMap_eq_nil_iff.mpr
  intro entry hmem
  have hentry := h entry hmem
  split
  next l call =>
    have hl : l ≠ level := Nat.ne_of_lt hentry.2
    simp only [hl, if_false]
  · rfl

theorem callsAt_bind_left (hn : ∀ value, Action.Adds (Entry.IsOfDispatch level) β (next value)) :
    callsAt level ((action >>= next) p).journal = callsAt level (action p).journal := by
  rcases Action.bind_cases action next p with ⟨value, _, hrun⟩ | ⟨_, _, hjournal⟩
  · rw [hrun, callsAt_append, callsAt_eq_nil (hn value _), List.append_nil]
  · rw [hjournal]

end Journal

theorem ValidatorRegistry.accepts_iff_validate {validators : ValidatorRegistry}
    {message : Message} {arguments : Arguments} {requirement : Value} :
    validators.Accepts message arguments requirement ↔
      (validators.validate requirement message arguments).1 = .returned (.ok true) := by
  unfold Accepts validate
  cases validators.lookup requirement.type with
  | none => simp
  | some validator =>
    simp only [Option.some.injEq, exists_eq_left']
    cases (validator.judge requirement message arguments).answer with
    | returned result =>
      cases result with
      | error cause => exact iff_of_false nofun nofun
      | ok answer =>
        cases answer with
        | true => exact iff_of_true rfl rfl
        | false => exact iff_of_false nofun nofun
    | panicked panic => simp [Ending.map]
    | hung => simp [Ending.map]

theorem ValidatorRegistry.contains_iff_lookup {validators : ValidatorRegistry} {type : ValueType} :
    validators.contains type = true ↔ validators.lookup type ≠ none := by
  change (validators.lookup type).isSome = true ↔ _
  exact Option.isSome_iff_ne_none

theorem Judged.cons {validators : ValidatorRegistry} {message : Message} {arguments : Arguments}
    {requirement : Value} {rest judged : List Value}
    (ha : validators.Accepts message arguments requirement)
    (h : Judged validators message arguments rest judged) :
    Judged validators message arguments (requirement :: rest) (requirement :: judged) := by
  have hcons : ∀ {before : List Value}, (∀ r ∈ before, validators.Accepts message arguments r) →
      ∀ r ∈ requirement :: before, validators.Accepts message arguments r := by
    intro before hbefore r hr
    rcases List.mem_cons.mp hr with rfl | hr
    · exact ha
    · exact hbefore r hr
  cases h with
  | all haccepted => exact .all (hcons haccepted)
  | refused haccepted hvalidator hrefused => exact .refused (hcons haccepted) hvalidator hrefused
  | missing haccepted hmissing => exact .missing (hcons haccepted) hmissing

namespace Processor

variable {level : Nat} {nested : Message → Action Outcome} {message : Message}
  {arguments : Arguments} {descriptor : Descriptor} {p : Processor}

theorem judge_apply (level : Nat) (message : Message) (arguments : Arguments)
    (requirement : Value) (p : Processor) :
    judge level message arguments requirement p =
      ⟨(p.validators.validate requirement message arguments).1, p,
        (if p.validators.contains requirement.type then
          [.called level (.judged requirement)] else []) ++
        ((p.validators.validate requirement message arguments).2.map .noted ++ [])⟩ := rfl

theorem callsAt_judge (level : Nat) (message : Message) (arguments : Arguments)
    (requirement : Value) (p : Processor) :
    callsAt level (judge level message arguments requirement p).journal =
      if p.validators.contains requirement.type then [.judged requirement] else [] := by
  have hnotes : callsAt level
      ((p.validators.validate requirement message arguments).2.map Entry.noted ++ []) = [] := by
    apply callsAt_eq_nil
    intro entry hmem
    rw [List.append_nil] at hmem
    obtain ⟨note, _, rfl⟩ := List.mem_map.mp hmem
    exact ⟨rfl, trivial⟩
  rw [judge_apply, callsAt_append, hnotes, List.append_nil]
  split <;> simp [callsAt]

/-- Judging stops at a requirement that is not accepted. -/
theorem judgeAll_cons_of_not_accepts {requirement : Value} (command : String)
    (rest : List Value) (ha : ¬ p.validators.Accepts message arguments requirement) :
    ∃ ending, ending ≠ .returned (.ok ()) ∧
      judgeAll level command message arguments (requirement :: rest) p =
        ⟨ending, p, (judge level message arguments requirement p).journal⟩ := by
  have hend : (judge level message arguments requirement p).ending ≠ .returned (.ok true) :=
    fun h => ha (ValidatorRegistry.accepts_iff_validate.mpr h)
  rw [judgeAll]
  cases hj : (judge level message arguments requirement p).ending with
  | returned result =>
    rw [Action.bind_of_returned hj]
    match result, hj with
    | .ok true, hj => exact absurd hj hend
    | .ok false, _ => exact ⟨_, by simp, congrArg (Run.mk _ p) (List.append_nil _)⟩
    | .error fault, _ => exact ⟨_, by simp, congrArg (Run.mk _ p) (List.append_nil _)⟩
  | panicked panic => exact ⟨_, by simp, Action.bind_of_panicked hj⟩
  | hung => exact ⟨_, by simp, Action.bind_of_hung hj⟩

/-- What is judged of a list of requirements, and when judging goes through. -/
theorem judgeAll_spec (level : Nat) (command : String) (message : Message)
    (arguments : Arguments) (p : Processor) (requirements : List Value) :
    (∃ judged, Judged p.validators message arguments requirements judged ∧
      callsAt level (judgeAll level command message arguments requirements p).journal =
        judged.map .judged) ∧
    (judgeAll level command message arguments requirements p).after = p ∧
    ((judgeAll level command message arguments requirements p).ending = .returned (.ok ()) ↔
      ∀ r ∈ requirements, p.validators.Accepts message arguments r) := by
  induction requirements with
  | nil => exact ⟨⟨[], .all (List.forall_mem_nil _), rfl⟩, rfl, by simp [judgeAll]⟩
  | cons requirement rest ih =>
    have hcalls := callsAt_judge level message arguments requirement p
    by_cases ha : p.validators.Accepts message arguments requirement
    · have hend : (judge level message arguments requirement p).ending = .returned (.ok true) :=
        ValidatorRegistry.accepts_iff_validate.mp ha
      have hafter : (judge level message arguments requirement p).after = p := rfl
      have hcontains : p.validators.contains requirement.type = true := by
        obtain ⟨validator, hlookup, _⟩ := ha
        simp [ValidatorRegistry.contains_iff_lookup, hlookup]
      obtain ⟨⟨judged, hjudged, heq⟩, hsame, hok⟩ := ih
      rw [judgeAll, Action.bind_of_returned hend, hafter]
      refine ⟨⟨requirement :: judged, hjudged.cons ha, ?_⟩, hsame, ?_⟩
      · rw [callsAt_append, hcalls, hcontains]
        exact congrArg (_ :: ·) heq
      · simpa [ha] using hok
    · obtain ⟨ending, hne, heq⟩ := judgeAll_cons_of_not_accepts command rest ha
      rw [heq]
      refine ⟨?_, rfl, iff_of_false hne fun h => ha (h requirement (by simp))⟩
      rw [hcalls]
      by_cases hcontains : p.validators.contains requirement.type = true
      · refine ⟨[requirement], Judged.refused (List.forall_mem_nil _) hcontains ha, ?_⟩
        rw [if_pos hcontains]
        rfl
      · have hlookup : p.validators.lookup requirement.type = none := by
          simpa [ValidatorRegistry.contains_iff_lookup] using hcontains
        refine ⟨[], Judged.missing (List.forall_mem_nil _) hlookup, ?_⟩
        rw [if_neg hcontains]
        rfl

/-- Building the module and running the handler behind it; what the handler dispatches is of lower
levels. -/
theorem callsAt_build_bind {handler : Action (Except Cause Unit)}
    (hhandler : callsAt level (handler p).journal = []) (descriptor : Descriptor) :
    callsAt level ((build level descriptor >>= fun _ =>
      Action.enter (.called level (.entered descriptor.name)) >>= fun _ => handler) p).journal =
        descriptor.invocation := by
  cases hfactory : descriptor.factory with
  | some panic =>
    have hbuild : build level descriptor p =
        ⟨.panicked panic, p, [.called level (.built descriptor.owner)]⟩ := by
      simp [build, hfactory, Action.enter_bind, Action.raise]
    rw [Action.bind_of_panicked (by rw [hbuild]), hbuild]
    simp [callsAt, Descriptor.invocation, hfactory]
  | none =>
    have hbuild : build level descriptor p =
        ⟨.returned (), p, [.called level (.built descriptor.owner)]⟩ := by
      simp [build, hfactory, Action.enter_bind]
    have hentered : callsAt level (.called level (.entered descriptor.name) ::
        (handler p).journal) = [.entered descriptor.name] := by
      simpa [callsAt] using hhandler
    rw [Action.bind_of_returned (by rw [hbuild]), hbuild, Action.enter_bind, callsAt_append,
      hentered]
    simp [callsAt, Descriptor.invocation, hfactory]

theorem callsAt_invoke (hnested : ∀ message, Action.Adds (Entry.IsOfDispatch level) _
    (nested message)) (descriptor : Descriptor) (arguments : Arguments) (p : Processor) :
    callsAt level (invoke level nested descriptor arguments p).journal =
      descriptor.invocation := by
  have hrun : callsAt level (((descriptor.body arguments).run nested) p).journal = [] :=
    callsAt_eq_nil
      ((Action.closed_adds level fun _ => id).run hnested (descriptor.body arguments) p)
  have hlog : callsAt level
      [.logged (.invoking descriptor.name descriptor.owner descriptor.method)] = [] := rfl
  unfold invoke
  rw [Action.log_bind, ← List.singleton_append, callsAt_append, hlog, List.nil_append,
    callsAt_bind_left fun _ => Action.Adds.silent fun _ => rfl]
  exact callsAt_build_bind hrun descriptor

theorem bindWords_after (level : Nat) (descriptor : Descriptor) (message : Message)
    (p : Processor) : (bindWords level descriptor message p).after = p := rfl

theorem callsAt_bindWords (level : Nat) (descriptor : Descriptor) (message : Message)
    (p : Processor) : callsAt level (bindWords level descriptor message p).journal = [] :=
  callsAt_eq_nil ((Action.closed_adds level fun _ => id).bindWords level descriptor message p)

/-- Where the words cannot be bound, nothing is called. -/
theorem callsAt_execute_of_not_bound (nested : Message → Action Outcome)
    (hbound : ∀ arguments, Binding.arguments (p.call level message) descriptor.name
      descriptor.parameters ≠ .returned (.ok arguments)) :
    callsAt level (execute level nested descriptor message p).journal = [] := by
  have hcalls := callsAt_bindWords level descriptor message p
  unfold execute
  cases hend : (bindWords level descriptor message p).ending with
  | returned result =>
    cases result with
    | error fault =>
      rw [Action.bind_of_returned hend, callsAt_append, hcalls]
      rfl
    | ok arguments => exact absurd hend (hbound arguments)
  | panicked panic => rw [Action.bind_of_panicked hend, hcalls]
  | hung => rw [Action.bind_of_hung hend, hcalls]

/-- Where they can, the requirements are judged, and the command is invoked behind them if all are
accepted. -/
theorem callsAt_execute_of_bound (hnested : ∀ message, Action.Adds (Entry.IsOfDispatch level) _
    (nested message)) (hbound : Binding.arguments (p.call level message) descriptor.name
      descriptor.parameters = .returned (.ok arguments)) :
    ∃ judged invoked, callsAt level (execute level nested descriptor message p).journal =
        judged.map .judged ++ invoked ∧
      Judged p.validators message arguments descriptor.allRequirements judged ∧
      ((∀ r ∈ descriptor.allRequirements, p.validators.Accepts message arguments r) →
        invoked = descriptor.invocation) ∧
      (¬ (∀ r ∈ descriptor.allRequirements, p.validators.Accepts message arguments r) →
        invoked = []) := by
  obtain ⟨⟨judged, hjudged, hcalls⟩, hafter, hok⟩ := judgeAll_spec level descriptor.name message
    arguments p descriptor.allRequirements
  unfold execute
  rw [Action.bind_of_returned hbound, callsAt_append, callsAt_bindWords, List.nil_append,
    bindWords_after]
  dsimp only
  cases hend : (judgeAll level descriptor.name message arguments descriptor.allRequirements
      p).ending with
  | returned result =>
    rw [Action.bind_of_returned hend, callsAt_append, hcalls, hafter]
    cases result with
    | error fault =>
      rw [hend] at hok
      exact ⟨judged, [], rfl, hjudged, fun h => absurd (hok.mpr h) (by simp), fun _ => rfl⟩
    | ok _ =>
      rw [hend] at hok
      exact ⟨judged, descriptor.invocation,
        congrArg (_ ++ ·) (callsAt_invoke hnested descriptor arguments p), hjudged,
        fun _ => rfl, fun h => absurd (hok.mp rfl) h⟩
  | panicked panic =>
    rw [hend] at hok
    rw [Action.bind_of_panicked hend, hcalls]
    exact ⟨judged, [], (List.append_nil _).symm, hjudged,
      fun h => absurd (hok.mpr h) (by simp), fun _ => rfl⟩
  | hung =>
    rw [hend] at hok
    rw [Action.bind_of_hung hend, hcalls]
    exact ⟨judged, [], (List.append_nil _).symm, hjudged,
      fun h => absurd (hok.mpr h) (by simp), fun _ => rfl⟩

/-- Behind a command that has been executed nothing is called. -/
theorem callsAt_perform (nested : Message → Action Outcome) (descriptor : Descriptor)
    (name : String) (message : Message) (p : Processor) :
    callsAt level (perform level nested descriptor name message p).journal =
      callsAt level (execute level nested descriptor message p).journal := by
  unfold perform
  apply callsAt_bind_left
  intro result
  have h := Action.closed_adds level fun _ => id
  cases result with
  | ok _ => exact h.bind (h.log rfl) fun _ => h.pure _
  | error fault => exact h.bind (h.report name message.peer _) fun _ => h.pure _

/-- A dispatch makes the calls of the command that its message names. -/
theorem callsAt_dispatch (level : Nat) (message : Message) (p : Processor) :
    callsAt level (dispatch (level + 1) message p).journal =
      match p.command? message with
      | none => []
      | some descriptor =>
        callsAt level (execute level (dispatch level) descriptor message p).journal := by
  have hdispatch : callsAt level (dispatch (level + 1) message p).journal =
      callsAt level (settle level (dispatch level) message p).journal := by
    rw [dispatch]
    rcases Action.bind_cases (settle level (dispatch level) message) _ p with
      ⟨outcome, _, hrun⟩ | ⟨_, _, hjournal⟩
    · rw [hrun, Action.enter_bind, callsAt_append]
      exact List.append_nil _
    · rw [hjournal]
  rw [hdispatch]
  unfold settle command?
  rw [Action.state_bind]
  cases p.settings.detect? message.content with
  | none => rfl
  | some name =>
    dsimp only [Option.bind_some]
    cases p.commands.resolve name with
    | none => rfl
    | some descriptor => exact callsAt_perform (dispatch level) descriptor name message p

/-- The calls of one dispatch: first validators, for the requirements that `Judged` picks out, then
the factory once and the handler once behind it, unless the factory panics. Neither is called where
no command is named, the words cannot be bound, or a requirement is not accepted, and no validator
is called unless the words could be bound. -/
theorem dispatch_calls_in_order (level : Nat) (message : Message) (p : Processor) :
    ∃ judged invoked, callsAt level (dispatch (level + 1) message p).journal =
        judged.map .judged ++ invoked ∧
      (∀ descriptor arguments, p.Binds level message descriptor arguments →
        Judged p.validators message arguments descriptor.allRequirements judged ∧
        ((∀ r ∈ descriptor.allRequirements, p.validators.Accepts message arguments r) →
          invoked = descriptor.invocation) ∧
        (¬ (∀ r ∈ descriptor.allRequirements, p.validators.Accepts message arguments r) →
          invoked = [])) ∧
      ((∀ descriptor arguments, ¬ p.Binds level message descriptor arguments) →
        judged = [] ∧ invoked = []) := by
  have hnested := (Action.closed_adds level fun _ => id).dispatch level (Nat.le_refl level)
  rw [callsAt_dispatch]
  cases hcommand : p.command? message with
  | none =>
    refine ⟨[], [], rfl, fun descriptor arguments h => ?_, fun _ => ⟨rfl, rfl⟩⟩
    exact absurd (hcommand.symm.trans h.1) (by simp)
  | some descriptor =>
    have hsame : ∀ {other arguments}, p.Binds level message other arguments →
        other = descriptor := fun h => Option.some.inj (h.1.symm.trans hcommand)
    by_cases hbound : ∃ arguments, Binding.arguments (p.call level message) descriptor.name
        descriptor.parameters = .returned (.ok arguments)
    · obtain ⟨arguments, hbound⟩ := hbound
      obtain ⟨judged, invoked, hcalls, hjudged, hinvoked, hnot⟩ :=
        callsAt_execute_of_bound hnested hbound
      refine ⟨judged, invoked, hcalls, fun other others h => ?_, fun h => ?_⟩
      · obtain rfl := hsame h
        have heq := h.2.symm.trans hbound
        simp only [Ending.returned.injEq, Except.ok.injEq] at heq
        subst heq
        exact ⟨hjudged, hinvoked, hnot⟩
      · exact absurd ⟨hcommand, hbound⟩ (h descriptor arguments)
    · have hcalls := callsAt_execute_of_not_bound (dispatch level)
        fun arguments h => hbound ⟨arguments, h⟩
      refine ⟨[], [], hcalls, fun other others h => ?_, fun _ => ⟨rfl, rfl⟩⟩
      obtain rfl := hsame h
      exact absurd ⟨others, h.2⟩ hbound

def brokenModule : Module Program where
  owner := "Broken"
  methods := [{
    name := "ping"
    command := some "ping"
    parameters := [.message, .client]
    body := fun _ => .done }]
  factory := some (.text "out of order")

def brokenPing : Descriptor :=
  ⟨"ping", "Broken", "ping", [.message, .client], [], brokenModule.factory, fun _ => .done⟩

def pingMessage : Message := { text := some "/ping" }

/-- Not every dispatch that gets as far as its factory enters the handler. -/
theorem entered_not_mem_of_panicking_factory :
    ¬ ∀ (level : Nat) (message : Message) (p : Processor) (descriptor : Descriptor)
      (arguments : Arguments), p.Binds level message descriptor arguments →
        (∀ r ∈ descriptor.allRequirements, p.validators.Accepts message arguments r) →
          .entered descriptor.name ∈ callsAt level (dispatch (level + 1) message p).journal := by
  intro h
  have hcommand : (serving brokenModule).command? pingMessage = some brokenPing := by rfl
  have hcalls : callsAt 0 (dispatch 1 pingMessage (serving brokenModule)).journal =
      [.built "Broken"] := by rfl
  have hmem := h 0 pingMessage (serving brokenModule) brokenPing
    ⟨[.message pingMessage, .client .memory]⟩ ⟨hcommand, rfl⟩ (List.forall_mem_nil _)
  rw [hcalls] at hmem
  simp at hmem

end Processor

end ChatDispatch
