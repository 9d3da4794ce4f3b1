import ChatDispatch.Proofs.Dispatch.Isolation
import ChatDispatch.Proofs.Dispatch.Sequence

/-!
Where panics end up. A panic of a factory or a handler is caught: it becomes a failure of the
dispatch, every observer sees it, and the batch goes on. Converters and validators are called
outside of that guard. A panic of one of them ends the dispatch without an outcome, and with it the
batch; the updates behind it are not taken.
-/

namespace ChatDispatch

theorem Ending.map_eq_panicked_iff {α β : Type} {ending : Ending α} {f : α → β} {panic : Panic} :
    ending.map f = .panicked panic ↔ ending = .panicked panic := by
  cases ending <;> simp [map]

namespace Action

variable {α β : Type} {action : Action α} {next : α → Action β} {p : Processor} {panic : Panic}

/-- A sequence panics where its first action does, or where the second does behind it. -/
theorem bind_panicked_iff :
    ((action >>= next) p).ending = .panicked panic ↔
      (action p).ending = .panicked panic ∨ ∃ value, (action p).ending = .returned value ∧
        (next value (action p).after).ending = .panicked panic := by
  cases hend : (action p).ending with
  | returned value =>
    rw [bind_of_returned hend]
    simp
  | panicked found =>
    rw [bind_of_panicked hend]
    simp
  | hung =>
    rw [bind_of_hung hend]
    simp

theorem bind_panicked_iff_of_returns
    (hnext : ∀ value p, ∃ result, (next value p).ending = .returned result) :
    ((action >>= next) p).ending = .panicked panic ↔ (action p).ending = .panicked panic := by
  refine bind_panicked_iff.trans (or_iff_left ?_)
  rintro ⟨value, _, hpanicked⟩
  obtain ⟨result, hresult⟩ := hnext value (action p).after
  rw [hresult] at hpanicked
  cases hpanicked

end Action

def ValidatorRegistry.PanicsOn (validators : ValidatorRegistry) (message : Message)
    (arguments : Arguments) (requirement : Value) (panic : Panic) : Prop :=
  ∃ validator, validators.lookup requirement.type = some validator ∧
    (validator.judge requirement message arguments).answer = .panicked panic

theorem ValidatorRegistry.validate_panicked_iff {validators : ValidatorRegistry}
    {message : Message} {arguments : Arguments} {requirement : Value} {panic : Panic} :
    (validators.validate requirement message arguments).1 = .panicked panic ↔
      validators.PanicsOn message arguments requirement panic := by
  unfold validate PanicsOn
  cases validators.lookup requirement.type with
  | none => simp
  | some validator => simp [Ending.map_eq_panicked_iff]

namespace Processor

variable {level : Nat} {nested : Message → Action Outcome} {message : Message}
  {arguments : Arguments} {descriptor : Descriptor} {p : Processor} {panic : Panic}

/-- Judging panics by the validator of a requirement, behind requirements that are accepted. -/
theorem judgeAll_panicked_iff {command : String} {requirements : List Value} :
    (judgeAll level command message arguments requirements p).ending = .panicked panic ↔
      ∃ before requirement rest, requirements = before ++ requirement :: rest ∧
        (∀ r ∈ before, p.validators.Accepts message arguments r) ∧
        p.validators.PanicsOn message arguments requirement panic := by
  induction requirements with
  | nil => exact iff_of_false nofun fun ⟨before, _, _, heq, _⟩ => by simp at heq
  | cons first others ih =>
    have hjudge : (judge level message arguments first p).ending =
        (p.validators.validate first message arguments).1 := rfl
    by_cases haccepted : p.validators.Accepts message arguments first
    · have hend := ValidatorRegistry.accepts_iff_validate.mp haccepted
      rw [judgeAll, Action.bind_of_returned (hjudge.trans hend)]
      refine ih.trans ⟨?_, ?_⟩
      · rintro ⟨before, requirement, rest, rfl, hbefore, hpanics⟩
        exact ⟨first :: before, requirement, rest, rfl,
          List.forall_mem_cons.mpr ⟨haccepted, hbefore⟩, hpanics⟩
      · rintro ⟨before, requirement, rest, heq, hbefore, hpanics⟩
        cases before with
        | nil =>
          obtain ⟨rfl, rfl⟩ := List.cons.inj heq
          have hpanicked := ValidatorRegistry.validate_panicked_iff.mpr hpanics
          rw [hend] at hpanicked
          cases hpanicked
        | cons other before =>
          obtain ⟨rfl, rfl⟩ := List.cons.inj heq
          exact ⟨before, requirement, rest, rfl, (List.forall_mem_cons.mp hbefore).2, hpanics⟩
    · have hfirst : (judgeAll level command message arguments (first :: others) p).ending =
          .panicked panic ↔ p.validators.PanicsOn message arguments first panic := by
        rw [judgeAll, ← ValidatorRegistry.validate_panicked_iff, ← hjudge]
        refine Action.bind_panicked_iff.trans (or_iff_left ?_)
        rintro ⟨answer, hanswer, hpanicked⟩
        rcases answer with fault | (_ | _)
        · cases hpanicked
        · cases hpanicked
        · exact haccepted (ValidatorRegistry.accepts_iff_validate.mpr hanswer)
      refine hfirst.trans ⟨?_, ?_⟩
      · intro hpanics
        exact ⟨[], first, others, rfl, List.forall_mem_nil _, hpanics⟩
      · rintro ⟨before, requirement, rest, heq, hbefore, hpanics⟩
        cases before with
        | nil =>
          obtain ⟨rfl, rfl⟩ := List.cons.inj heq
          exact hpanics
        | cons other before =>
          obtain ⟨rfl, rfl⟩ := List.cons.inj heq
          exact absurd ((List.forall_mem_cons.mp hbefore).1) haccepted

/-- No panic gets out of an invocation. -/
theorem invoke_not_panicked (level : Nat) (nested : Message → Action Outcome)
    (descriptor : Descriptor) (arguments : Arguments) (p : Processor) (panic : Panic) :
    (invoke level nested descriptor arguments p).ending ≠ .panicked panic := by
  rw [invoke_ending]
  cases work nested descriptor arguments p <;> nofun

/-- The panics that nothing guards against: one of a converter while the words of a message are
bound, and one of a validator while the requirements of its command are judged. -/
inductive Unguarded (p : Processor) (level : Nat) (message : Message) (panic : Panic) : Prop
  | converting {descriptor : Descriptor} (hcommand : p.command? message = some descriptor)
      (hbound : Binding.arguments (p.call level message) descriptor.name descriptor.parameters =
        .panicked panic)
  | judging {descriptor : Descriptor} {arguments : Arguments} {before rest : List Value}
      {requirement : Value} (hbinds : p.Binds level message descriptor arguments)
      (hsplit : descriptor.allRequirements = before ++ requirement :: rest)
      (haccepted : ∀ r ∈ before, p.validators.Accepts message arguments r)
      (hpanics : p.validators.PanicsOn message arguments requirement panic)

theorem execute_panicked_iff (hcommand : p.command? message = some descriptor) :
    (execute level nested descriptor message p).ending = .panicked panic ↔
      p.Unguarded level message panic := by
  constructor
  · intro h
    rcases Action.bind_panicked_iff.mp h with hbound | ⟨result, hbound, hnext⟩
    · exact .converting hcommand hbound
    · cases result with
      | error fault => cases hnext
      | ok arguments =>
        rcases Action.bind_panicked_iff.mp hnext with hjudged | ⟨judged, _, hinvoked⟩
        · rw [bindWords_after] at hjudged
          obtain ⟨before, requirement, rest, hsplit, haccepted, hpanics⟩ :=
            judgeAll_panicked_iff.mp hjudged
          exact .judging ⟨hcommand, hbound⟩ hsplit haccepted hpanics
        · cases judged with
          | error fault => cases hinvoked
          | ok _ => exact (invoke_not_panicked _ _ _ _ _ _ hinvoked).elim
  · intro h
    refine Action.bind_panicked_iff.mpr ?_
    cases h with
    | converting hother hbound =>
      obtain rfl := Option.some.inj (hother.symm.trans hcommand)
      exact .inl hbound
    | judging hbinds hsplit haccepted hpanics =>
      obtain rfl := Option.some.inj (hbinds.1.symm.trans hcommand)
      refine .inr ⟨_, hbinds.2, Action.bind_panicked_iff.mpr (.inl ?_)⟩
      rw [bindWords_after]
      exact judgeAll_panicked_iff.mpr ⟨_, _, _, hsplit, haccepted, hpanics⟩

theorem not_unguarded_of_no_command (hcommand : p.command? message = none) :
    ¬ p.Unguarded level message panic := by
  intro h
  cases h with
  | converting hother _ => simp [hcommand] at hother
  | judging hbinds =>
    have hother := hbinds.1
    simp [hcommand] at hother

/-- The panics that get out of a dispatch. -/
theorem dispatch_panicked_iff :
    (dispatch (level + 1) message p).ending = .panicked panic ↔
      p.Unguarded level message panic := by
  rw [dispatch, Action.bind_panicked_iff_of_returns fun _ _ => ⟨_, rfl⟩]
  unfold settle
  rw [Action.state_bind]
  cases hname : p.settings.detect? message.content with
  | none =>
    have hcommand : p.command? message = none := by simp [command?, hname]
    exact iff_of_false (fun h => by cases h) (not_unguarded_of_no_command hcommand)
  | some name =>
    dsimp only
    cases hresolve : p.commands.resolve name with
    | none =>
      have hcommand : p.command? message = none := by simp [command?, hname, hresolve]
      exact iff_of_false (fun h => by cases h) (not_unguarded_of_no_command hcommand)
    | some descriptor =>
      have hcommand : p.command? message = some descriptor := by simp [command?, hname, hresolve]
      rw [← execute_panicked_iff hcommand]
      apply Action.bind_panicked_iff_of_returns
      intro result q
      cases result with
      | ok _ => exact ⟨_, rfl⟩
      | error fault => exact ⟨_, rfl⟩

/-- Behind words that are bound and requirements that are accepted, a command ends as its invocation
does. -/
theorem execute_ending_of_accepted (hbinds : p.Binds level message descriptor arguments)
    (haccepted : ∀ r ∈ descriptor.allRequirements, p.validators.Accepts message arguments r) :
    (execute level nested descriptor message p).ending =
      (invoke level nested descriptor arguments p).ending := by
  obtain ⟨_, hafter, hok⟩ := judgeAll_spec level descriptor.name message arguments p
    descriptor.allRequirements
  have hbound := (bindWords_ending level descriptor message p).trans hbinds.2
  unfold execute
  rw [Action.bind_of_returned hbound, bindWords_after]
  dsimp only
  rw [Action.bind_of_returned (hok.mpr haccepted), hafter]

/-- A panic of a factory or a handler is the failure of its dispatch, and every observer there is by
then sees it. -/
theorem dispatch_of_work_panicked (hbinds : p.Binds level message descriptor arguments)
    (haccepted : ∀ r ∈ descriptor.allRequirements, p.validators.Accepts message arguments r)
    (hwork : work (dispatch level) descriptor arguments p = .panicked panic) :
    let run := dispatch (level + 1) message p
    let failure : Failure := ⟨message.content, .handlerInvocation descriptor.name descriptor.owner
      descriptor.method (panicCause panic)⟩
    run.ending = .returned (.failed failure) ∧
      ∀ observer ∈ run.after.observers, .observed observer failure ∈ run.journal := by
  obtain ⟨name, hname, hresolve⟩ := Option.bind_eq_some_iff.mp hbinds.1
  have hresult : (execute level (dispatch level) descriptor message p).ending =
      .returned (.error (.handlerInvocation descriptor.name descriptor.owner descriptor.method
        (panicCause panic))) := by
    rw [execute_ending_of_accepted hbinds haccepted, invoke_ending, hwork]
    rfl
  have hsettled : settle level (dispatch level) message p =
      perform level (dispatch level) descriptor name message p :=
    settle_of_resolved hname hresolve
  rw [dispatch_of_settled (hsettled.trans (perform_of_returned hresult))]
  refine ⟨rfl, ?_⟩
  intro observer hobserver
  simp only [closing, List.mem_append, List.mem_cons, List.mem_map]
  exact .inl (.inr (.inr (.inr ⟨observer, hobserver, rfl⟩)))

theorem dispatchUpdate_panicked_iff {update : Update} :
    (dispatchUpdate (level + 1) update p).ending = .panicked panic ↔
      ∃ message, update.message? = some message ∧ p.Unguarded level message panic := by
  cases hmessage : update.message? with
  | none =>
    rw [dispatchUpdate_of_none _ hmessage]
    simp
  | some message =>
    rw [dispatchUpdate_of_some _ hmessage]
    simp [dispatch_panicked_iff]

/-- A batch panics where one of its dispatches does, behind dispatches that have outcomes. -/
theorem dispatchBatch_panicked_iff {depth : Nat} {updates : List Update} :
    (dispatchBatch depth updates p).ending = .panicked panic ↔
      ∃ before update rest outcomes, updates = before ++ update :: rest ∧
        (dispatchBatch depth before p).ending = .returned outcomes ∧
        (dispatchUpdate depth update (dispatchBatch depth before p).after).ending =
          .panicked panic := by
  induction updates generalizing p with
  | nil => exact iff_of_false nofun fun ⟨before, _, _, _, heq, _⟩ => by simp at heq
  | cons first updates ih =>
    rw [dispatchBatch, Action.bind_panicked_iff]
    constructor
    · rintro (hpanicked | ⟨outcome, hreturned, hrest⟩)
      · exact ⟨[], first, updates, [], rfl, rfl, hpanicked⟩
      · have hpanicked := (Action.bind_panicked_iff_of_returns fun _ _ => ⟨_, rfl⟩).mp hrest
        obtain ⟨before, update, rest, outcomes, rfl, houtcomes, hupdate⟩ := ih.mp hpanicked
        refine ⟨first :: before, update, rest, outcome :: outcomes, rfl, ?_, ?_⟩
        · rw [dispatchBatch_cons_of_returned hreturned, houtcomes]
          rfl
        · rw [dispatchBatch_cons_of_returned hreturned]
          exact hupdate
    · rintro ⟨before, update, rest, outcomes, heq, houtcomes, hupdate⟩
      -- The panic is that of the first update, or comes behind an outcome of it.
      cases before with
      | nil =>
        obtain ⟨rfl, rfl⟩ := List.cons.inj heq
        exact .inl hupdate
      | cons other before =>
        obtain ⟨rfl, rfl⟩ := List.cons.inj heq
        obtain ⟨outcome, hreturned, _⟩ := Action.exists_of_bind_returned houtcomes
        rw [dispatchBatch_cons_of_returned hreturned] at houtcomes hupdate
        obtain ⟨others, hothers, _⟩ := Ending.map_eq_returned_iff.mp houtcomes
        have hpanicked := ih.mpr ⟨before, update, rest, others, rfl, hothers, hupdate⟩
        exact .inr ⟨outcome, hreturned,
          (Action.bind_panicked_iff_of_returns fun _ _ => ⟨_, rfl⟩).mpr hpanicked⟩

/-- Behind updates whose dispatches panic, nothing is taken. -/
theorem dispatchBatch_append_of_panicked {depth : Nat} {first : List Update}
    (h : (dispatchBatch depth first p).ending = .panicked panic) (second : List Update) :
    dispatchBatch depth (first ++ second) p = dispatchBatch depth first p := by
  rw [dispatchBatch_append, Action.bind_of_panicked h, ← h]

/-- The panics that get out of a batch are those of converters and validators: one of them leaves
the batch without outcomes and the updates behind its own untaken. A batch that returns has one
outcome for each update. -/
theorem dispatchBatch_panics (level : Nat) (updates : List Update) (p : Processor) :
    (∀ outcomes, (dispatchBatch (level + 1) updates p).ending = .returned outcomes →
      outcomes.length = updates.length) ∧
    (∀ panic, (dispatchBatch (level + 1) updates p).ending = .panicked panic →
      ∃ before update rest outcomes message, updates = before ++ update :: rest ∧
        (dispatchBatch (level + 1) before p).ending = .returned outcomes ∧
        update.message? = some message ∧
        (dispatchBatch (level + 1) before p).after.Unguarded level message panic ∧
        dispatchBatch (level + 1) updates p =
          dispatchBatch (level + 1) (before ++ [update]) p) ∧
    ∀ before update rest outcomes message panic, updates = before ++ update :: rest →
      (dispatchBatch (level + 1) before p).ending = .returned outcomes →
      update.message? = some message →
      (dispatchBatch (level + 1) before p).after.Unguarded level message panic →
      (dispatchBatch (level + 1) updates p).ending = .panicked panic := by
  refine ⟨fun _ => length_of_dispatchBatch, ?_, ?_⟩
  · intro panic h
    obtain ⟨before, update, rest, outcomes, rfl, houtcomes, hupdate⟩ :=
      dispatchBatch_panicked_iff.mp h
    obtain ⟨message, hmessage, hunguarded⟩ := dispatchUpdate_panicked_iff.mp hupdate
    have hfirst : (dispatchBatch (level + 1) (before ++ [update]) p).ending = .panicked panic :=
      dispatchBatch_panicked_iff.mpr ⟨before, update, [], outcomes, rfl, houtcomes, hupdate⟩
    refine ⟨before, update, rest, outcomes, message, rfl, houtcomes, hmessage, hunguarded, ?_⟩
    rw [List.append_cons]
    exact dispatchBatch_append_of_panicked hfirst rest
  · intro before update rest outcomes message panic hsplit houtcomes hmessage hunguarded
    have hupdate := dispatchUpdate_panicked_iff.mpr ⟨message, hmessage, hunguarded⟩
    exact dispatchBatch_panicked_iff.mpr
      ⟨before, update, rest, outcomes, hsplit, houtcomes, hupdate⟩

def switchModule : Module Program where
  owner := "Switch"
  methods := [{
    name := "switch"
    command := some "switch"
    parameters := [.message, .client, (Parameter.converted "position" .flag).required ⟨.flag, true⟩]
    body := fun _ => .done }]

def switching (converter : Converter) (validator : Validator) : Processor :=
  (addValidator validator (addConverter converter (serving switchModule)).after).after

def switchOn : Update := .ofMessage 0 { text := some "/switch on" }

/-- A converter that panics ends a batch, and so does a validator. -/
theorem dispatchBatch_switchOn_panics :
    (dispatchBatch 1 [switchOn, switchOn] (switching
      ⟨.flag, fun _ _ => .panicked (.text "jammed")⟩
      ⟨.flag, fun required _ _ => ⟨.returned (.ok required), []⟩⟩)).ending =
        .panicked (.text "jammed") ∧
    (dispatchBatch 1 [switchOn, switchOn] (switching
      ⟨.flag, fun _ word => .returned (.ok (word == "on"))⟩
      ⟨.flag, fun _ _ _ => ⟨.panicked (.text "weary"), []⟩⟩)).ending =
        .panicked (.text "weary") := by
  constructor
  · rfl
  · rfl

/-- So not every update of a batch comes to an outcome. -/
theorem not_forall_dispatchBatch_not_panicked :
    ¬ ∀ (level : Nat) (updates : List Update) (p : Processor) (panic : Panic),
      (dispatchBatch (level + 1) updates p).ending ≠ .panicked panic :=
  fun h => h 0 _ _ _ dispatchBatch_switchOn_panics.1

end Processor

end ChatDispatch
