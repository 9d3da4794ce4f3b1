import ChatDispatch.Proofs.Dispatch.Calls

/-!
The course of a dispatch. A message that names no registered command is ignored. Otherwise its
words are bound and the requirements on the command are judged, which leaves the state as it is,
and where neither stops the dispatch the command is invoked. A result is reported, and then the
dispatch is over. What is proved of whole dispatches follows from these cases.
-/

namespace ChatDispatch

/-- What binding words and judging requirements can put into the journal. -/
def Entry.isPreparation : Entry → Bool
  | .logged (.bound ..) | .noted _ | .called _ (.judged _) => true
  | _ => false

namespace Processor

variable {level : Nat} {nested : Message → Action Outcome} {message : Message}
  {arguments : Arguments} {descriptor : Descriptor} {p : Processor}

def outcomeOf (name : String) (message : Message) : Except Fault Unit → Outcome
  | .ok () => .executed name
  | .error fault => .failed ⟨message.content, fault⟩

def closing (name : String) (message : Message) (observers : List Nat) :
    Except Fault Unit → List Entry
  | .ok () => [.logged (.event (.ofEvent message.peer (.dispatched name message.content)))]
  | .error fault =>
    .logged (.commandFailed name fault.stage.name fault.message) ::
    .logged (.event (.ofEvent message.peer
      (.failed (some name) message.content fault.stage.name fault.message))) ::
    observers.map fun observer => .observed observer ⟨message.content, fault⟩

theorem bindWords_ending (level : Nat) (descriptor : Descriptor) (message : Message)
    (p : Processor) : (bindWords level descriptor message p).ending =
      Binding.arguments (p.call level message) descriptor.name descriptor.parameters := rfl

theorem isPreparation_of_mem_bindWords {entry : Entry}
    (h : entry ∈ (bindWords level descriptor message p).journal) : entry.isPreparation = true := by
  have hjournal : (bindWords level descriptor message p).journal =
      ((Binding.log descriptor.parameters
        (Binding.bind (p.call level message) descriptor.name descriptor.parameters)).map
          Entry.logged) ++ [] := rfl
  rw [hjournal, List.append_nil] at h
  obtain ⟨record, hrecord, rfl⟩ := List.mem_map.mp h
  obtain ⟨pair, _, rfl⟩ := List.mem_map.mp hrecord
  rfl

theorem judge_adds_preparation (level : Nat) (message : Message) (arguments : Arguments)
    (requirement : Value) : Action.Adds (fun entry => entry.isPreparation = true) _
      (judge level message arguments requirement) := by
  intro p entry hmem
  rw [judge_apply, List.append_nil] at hmem
  rcases List.mem_append.mp hmem with hmem | hmem
  · simp only [List.mem_ite_nil_right, List.mem_singleton] at hmem
    rw [hmem.2]
    rfl
  · obtain ⟨note, _, rfl⟩ := List.mem_map.mp hmem
    rfl

theorem judgeAll_adds_preparation (level : Nat) (command : String) (message : Message)
    (arguments : Arguments) (requirements : List Value) :
    Action.Adds (fun entry => entry.isPreparation = true) _
      (judgeAll level command message arguments requirements) := by
  induction requirements with
  | nil => exact Action.Adds.silent fun _ => rfl
  | cons requirement rest ih =>
    refine (judge_adds_preparation level message arguments requirement).bind fun answer => ?_
    match answer with
    | .ok true => exact ih
    | .ok false => exact Action.Adds.silent fun _ => rfl
    | .error fault => exact Action.Adds.silent fun _ => rfl

/-- All that the run of a command can come to, in the order of the steps that end it. What does not
get as far as the invocation leaves the state as it is. -/
inductive Executed (level : Nat) (nested : Message → Action Outcome) (descriptor : Descriptor)
    (message : Message) (p : Processor) : Run (Except Fault Unit) → Prop
  | unbound {fault : Fault} {before : List Entry}
      (hbound : Binding.arguments (p.call level message) descriptor.name descriptor.parameters =
        .returned (.error fault))
      (hbefore : ∀ entry ∈ before, entry.isPreparation = true) :
      Executed level nested descriptor message p ⟨.returned (.error fault), p, before⟩
  | refused {arguments : Arguments} {fault : Fault} {before : List Entry}
      (hbound : Binding.arguments (p.call level message) descriptor.name descriptor.parameters =
        .returned (.ok arguments))
      (hjudged : (judgeAll level descriptor.name message arguments
        descriptor.allRequirements p).ending = .returned (.error fault))
      (hbefore : ∀ entry ∈ before, entry.isPreparation = true) :
      Executed level nested descriptor message p ⟨.returned (.error fault), p, before⟩
  | broken {ending : Ending (Except Fault Unit)} {before : List Entry}
      (hending : ∀ result, ending ≠ .returned result)
      (hbefore : ∀ entry ∈ before, entry.isPreparation = true) :
      Executed level nested descriptor message p ⟨ending, p, before⟩
  | invoked {arguments : Arguments} {before : List Entry}
      (hbound : Binding.arguments (p.call level message) descriptor.name descriptor.parameters =
        .returned (.ok arguments))
      (haccepted : ∀ r ∈ descriptor.allRequirements, p.validators.Accepts message arguments r)
      (hbefore : ∀ entry ∈ before, entry.isPreparation = true) :
      Executed level nested descriptor message p
        ⟨(invoke level nested descriptor arguments p).ending,
          (invoke level nested descriptor arguments p).after,
          before ++ (invoke level nested descriptor arguments p).journal⟩

/-- Behind words that have been bound, the requirements decide whether the command is invoked. -/
theorem execute_of_bound
    (hbound : Binding.arguments (p.call level message) descriptor.name descriptor.parameters =
      .returned (.ok arguments)) :
    Executed level nested descriptor message p (execute level nested descriptor message p) := by
  obtain ⟨_, hafter, hok⟩ := judgeAll_spec level descriptor.name message arguments p
    descriptor.allRequirements
  have hbefore : ∀ entry ∈ (bindWords level descriptor message p).journal ++
      (judgeAll level descriptor.name message arguments descriptor.allRequirements p).journal,
      entry.isPreparation = true := by
    intro entry hmem
    rcases List.mem_append.mp hmem with hmem | hmem
    · exact isPreparation_of_mem_bindWords hmem
    · exact judgeAll_adds_preparation level descriptor.name message arguments
        descriptor.allRequirements p entry hmem
  have hjoin := (bindWords_ending level descriptor message p).trans hbound
  unfold execute
  rw [Action.bind_of_returned hjoin, bindWords_after]
  dsimp only
  cases hend : (judgeAll level descriptor.name message arguments descriptor.allRequirements
      p).ending with
  | returned result =>
    rw [Action.bind_of_returned hend, hafter]
    cases result with
    | error fault =>
      simp only [Action.pure_apply, List.append_nil]
      exact .refused hbound hend hbefore
    | ok done =>
      have haccepted := hok.mp hend
      simp only [← List.append_assoc]
      exact .invoked hbound haccepted hbefore
  | panicked panic =>
    rw [Action.bind_of_panicked hend, hafter]
    exact .broken nofun hbefore
  | hung =>
    rw [Action.bind_of_hung hend, hafter]
    exact .broken nofun hbefore

theorem execute_cases (level : Nat) (nested : Message → Action Outcome) (descriptor : Descriptor)
    (message : Message) (p : Processor) :
    Executed level nested descriptor message p (execute level nested descriptor message p) := by
  have hbefore : ∀ entry ∈ (bindWords level descriptor message p).journal,
      entry.isPreparation = true := fun entry => isPreparation_of_mem_bindWords
  cases hbound : Binding.arguments (p.call level message) descriptor.name
      descriptor.parameters with
  | returned result =>
    cases result with
    | ok arguments => exact execute_of_bound hbound
    | error fault =>
      have hend := (bindWords_ending level descriptor message p).trans hbound
      unfold execute
      rw [Action.bind_of_returned hend, bindWords_after]
      simp only [Action.pure_apply, List.append_nil]
      exact .unbound hbound hbefore
  | panicked panic =>
    have hend := (bindWords_ending level descriptor message p).trans hbound
    unfold execute
    rw [Action.bind_of_panicked hend, bindWords_after]
    exact .broken nofun hbefore
  | hung =>
    have hend := (bindWords_ending level descriptor message p).trans hbound
    unfold execute
    rw [Action.bind_of_hung hend, bindWords_after]
    exact .broken nofun hbefore

/-- A factory that panics: its panic is the failure of the invocation. -/
theorem invoke_of_panic {panic : Panic} (hfactory : descriptor.factory = some panic)
    (arguments : Arguments) (p : Processor) :
    invoke level nested descriptor arguments p =
      ⟨.returned (.error (.handlerInvocation descriptor.name descriptor.owner descriptor.method
          (panicCause panic))), p,
        [.logged (.invoking descriptor.name descriptor.owner descriptor.method),
          .called level (.built descriptor.owner)]⟩ := by
  have hbuild : build level descriptor p =
      ⟨.panicked panic, p, [.called level (.built descriptor.owner)]⟩ := by
    simp [build, hfactory, Action.enter_bind, Action.raise]
  have hguarded : Action.guarded (build level descriptor >>= fun _ =>
      Action.enter (.called level (.entered descriptor.name)) >>= fun _ =>
        (descriptor.body arguments).run nested) p =
      ⟨.returned (.error panic), p, [.called level (.built descriptor.owner)]⟩ := by
    simp only [Action.guarded]
    rw [Action.bind_of_panicked (by rw [hbuild]), hbuild]
  unfold invoke
  rw [Action.log_bind, Action.bind_of_returned (congrArg Run.ending hguarded), hguarded]
  rfl

/-- How an invocation ends behind a handler that has ended: a panic is a failure like any other. -/
def invocationEnding (descriptor : Descriptor) :
    Ending (Except Cause Unit) → Ending (Except Fault Unit)
  | .returned result => .returned (result.mapError
      (.handlerInvocation descriptor.name descriptor.owner descriptor.method))
  | .panicked panic => .returned (.error (.handlerInvocation descriptor.name descriptor.owner
      descriptor.method (panicCause panic)))
  | .hung => .hung

/-- A factory that does not panic: the handler is run. -/
theorem invoke_of_built (hfactory : descriptor.factory = none) (arguments : Arguments)
    (p : Processor) :
    invoke level nested descriptor arguments p =
      ⟨invocationEnding descriptor ((descriptor.body arguments).run nested p).ending,
        ((descriptor.body arguments).run nested p).after,
        .logged (.invoking descriptor.name descriptor.owner descriptor.method) ::
        .called level (.built descriptor.owner) :: .called level (.entered descriptor.name) ::
          ((descriptor.body arguments).run nested p).journal⟩ := by
  have hbuild : build level descriptor p =
      ⟨.returned (), p, [.called level (.built descriptor.owner)]⟩ := by
    simp [build, hfactory, Action.enter_bind]
  have hinner : (build level descriptor >>= fun _ =>
      Action.enter (.called level (.entered descriptor.name)) >>= fun _ =>
        (descriptor.body arguments).run nested) p =
      ⟨((descriptor.body arguments).run nested p).ending,
        ((descriptor.body arguments).run nested p).after,
        .called level (.built descriptor.owner) :: .called level (.entered descriptor.name) ::
          ((descriptor.body arguments).run nested p).journal⟩ := by
    rw [Action.bind_of_returned (by rw [hbuild]), hbuild, Action.enter_bind]
    rfl
  unfold invoke
  rw [Action.log_bind, Action.bind_pure_apply]
  simp only [Action.guarded]
  rw [hinner]
  dsimp only
  cases ((descriptor.body arguments).run nested p).ending <;> rfl

/-- How the work of a command ends: a factory that panics keeps the handler from running. -/
def work (nested : Message → Action Outcome) (descriptor : Descriptor) (arguments : Arguments)
    (p : Processor) : Ending (Except Cause Unit) :=
  match descriptor.factory with
  | some panic => .panicked panic
  | none => ((descriptor.body arguments).run nested p).ending

theorem invoke_ending (level : Nat) (nested : Message → Action Outcome) (descriptor : Descriptor)
    (arguments : Arguments) (p : Processor) :
    (invoke level nested descriptor arguments p).ending =
      invocationEnding descriptor (work nested descriptor arguments p) := by
  unfold work
  cases hfactory : descriptor.factory with
  | some panic =>
    rw [invoke_of_panic hfactory]
    rfl
  | none => rw [invoke_of_built hfactory]

/-- The fault of an invocation names the command, and wraps what the handler reports or what is
reported of a panic. -/
theorem fault_of_invoke {fault : Fault}
    (h : (invoke level nested descriptor arguments p).ending = .returned (.error fault)) :
    ∃ cause, fault = .handlerInvocation descriptor.name descriptor.owner descriptor.method cause ∧
      (work nested descriptor arguments p = .returned (.error cause) ∨
        ∃ panic, work nested descriptor arguments p = .panicked panic ∧
          cause = panicCause panic) := by
  rw [invoke_ending] at h
  cases hwork : work nested descriptor arguments p with
  | returned result =>
    rw [hwork] at h
    cases result with
    | ok done => cases h
    | error cause =>
      cases h
      exact ⟨cause, rfl, .inl rfl⟩
  | panicked panic =>
    rw [hwork] at h
    cases h
    exact ⟨panicCause panic, rfl, .inr ⟨panic, rfl, rfl⟩⟩
  | hung =>
    rw [hwork] at h
    cases h

/-- What a dispatch does with a command that has been found: a result of its run is reported. -/
theorem perform_of_returned {name : String} {result : Except Fault Unit}
    (h : (execute level nested descriptor message p).ending = .returned result) :
    perform level nested descriptor name message p =
      ⟨.returned (outcomeOf name message result),
        (execute level nested descriptor message p).after,
        (execute level nested descriptor message p).journal ++
          closing name message (execute level nested descriptor message p).after.observers
            result⟩ := by
  unfold perform
  rw [Action.bind_of_returned h]
  cases result with
  | ok done => rfl
  | error fault =>
    refine congrArg (Run.mk _ _) (congrArg (_ ++ ·) ?_)
    exact List.append_nil _

theorem perform_of_not_returned (name : String)
    (h : ∀ result, (execute level nested descriptor message p).ending ≠ .returned result) :
    ∃ ending, (∀ outcome, ending ≠ .returned outcome) ∧
      perform level nested descriptor name message p =
        ⟨ending, (execute level nested descriptor message p).after,
          (execute level nested descriptor message p).journal⟩ := by
  unfold perform
  cases hend : (execute level nested descriptor message p).ending with
  | returned result => exact absurd hend (h result)
  | panicked panic => exact ⟨.panicked panic, nofun, Action.bind_of_panicked hend⟩
  | hung => exact ⟨.hung, nofun, Action.bind_of_hung hend⟩

inductive Course (level : Nat) (message : Message) (p : Processor) : Run Outcome → Prop
  | ignored {reason : IgnoreReason} {record : LogRecord}
      (hcommand : p.command? message = none)
      (hrecord : record = .notACommand message.peer ∨ ∃ name, record = .unknownCommand name) :
      Course level message p ⟨.returned (.ignored reason), p,
        [.logged record, .concluded level message (.ignored reason)]⟩
  | finished {name : String} {descriptor : Descriptor} {result : Except Fault Unit}
      {run : Run (Except Fault Unit)}
      (hname : p.settings.detect? message.content = some name)
      (hcommand : p.command? message = some descriptor)
      (hrun : execute level (dispatch level) descriptor message p = run)
      (hresult : run.ending = .returned result) :
      Course level message p ⟨.returned (outcomeOf name message result), run.after,
        run.journal ++ (closing name message run.after.observers result ++
          [.concluded level message (outcomeOf name message result)])⟩
  | broken {descriptor : Descriptor} {ending : Ending Outcome} {run : Run (Except Fault Unit)}
      (hcommand : p.command? message = some descriptor)
      (hrun : execute level (dispatch level) descriptor message p = run)
      (hending : ∀ outcome, ending ≠ .returned outcome) :
      Course level message p ⟨ending, run.after, run.journal⟩

theorem dispatch_of_settled {outcome : Outcome} {after : Processor} {journal : List Entry}
    (h : settle level (dispatch level) message p = ⟨.returned outcome, after, journal⟩) :
    dispatch (level + 1) message p =
      ⟨.returned outcome, after, journal ++ [.concluded level message outcome]⟩ := by
  rw [dispatch, Action.bind_of_returned (congrArg Run.ending h), h]
  rfl

theorem dispatch_of_not_settled {ending : Ending Outcome} {after : Processor}
    {journal : List Entry} (hending : ∀ outcome, ending ≠ .returned outcome)
    (h : settle level (dispatch level) message p = ⟨ending, after, journal⟩) :
    dispatch (level + 1) message p = ⟨ending, after, journal⟩ := by
  rw [dispatch]
  cases ending with
  | returned outcome => exact absurd rfl (hending outcome)
  | panicked panic => rw [Action.bind_of_panicked (congrArg Run.ending h), h]
  | hung => rw [Action.bind_of_hung (congrArg Run.ending h), h]

theorem settle_of_resolved {name : String}
    (hname : p.settings.detect? message.content = some name)
    (hresolve : p.commands.resolve name = some descriptor) :
    settle level nested message p = perform level nested descriptor name message p := by
  unfold settle
  rw [Action.state_bind, hname]
  dsimp only
  rw [hresolve]

theorem dispatch_course (level : Nat) (message : Message) (p : Processor) :
    Course level message p (dispatch (level + 1) message p) := by
  cases hname : p.settings.detect? message.content with
  | none =>
    have hcommand : p.command? message = none := by simp [command?, hname]
    have hsettled : settle level (dispatch level) message p =
        ⟨.returned (.ignored .notACommand), p, [.logged (.notACommand message.peer)]⟩ := by
      unfold settle
      rw [Action.state_bind, hname]
      rfl
    rw [dispatch_of_settled hsettled]
    exact .ignored hcommand (.inl rfl)
  | some name =>
    cases hresolve : p.commands.resolve name with
    | none =>
      have hcommand : p.command? message = none := by simp [command?, hname, hresolve]
      have hsettled : settle level (dispatch level) message p =
          ⟨.returned (.ignored (.unknownCommand name)), p, [.logged (.unknownCommand name)]⟩ := by
        unfold settle
        rw [Action.state_bind, hname]
        dsimp only
        rw [hresolve]
        rfl
      rw [dispatch_of_settled hsettled]
      exact .ignored hcommand (.inr ⟨name, rfl⟩)
    | some descriptor =>
      have hcommand : p.command? message = some descriptor := by simp [command?, hname, hresolve]
      have hsettled : settle level (dispatch level) message p =
          perform level (dispatch level) descriptor name message p :=
        settle_of_resolved hname hresolve
      by_cases hreturned : ∃ result,
          (execute level (dispatch level) descriptor message p).ending = .returned result
      · obtain ⟨result, hresult⟩ := hreturned
        rw [dispatch_of_settled (hsettled.trans (perform_of_returned hresult)), List.append_assoc]
        exact .finished hname hcommand rfl hresult
      · have hnone := fun result h => hreturned ⟨result, h⟩
        obtain ⟨ending, hending, hperform⟩ := perform_of_not_returned name hnone
        rw [dispatch_of_not_settled hending (hsettled.trans hperform)]
        exact .broken hcommand rfl hending

end Processor

end ChatDispatch
