import ChatDispatch.Proofs.Dispatch.Isolation
import ChatDispatch.Proofs.Dispatch.Panics

/-!
The replies of a dispatch. Only a handler replies: what is sent by a dispatch is what the handler of
its command has sent, and neither binding nor judging nor the report of a fault adds to it.
-/

namespace ChatDispatch

def replies (journal : List Entry) : List (Int × String) :=
  journal.filterMap fun entry =>
    match entry with
    | .replied peer text => some (peer, text)
    | _ => none

theorem replies_append (first second : List Entry) :
    replies (first ++ second) = replies first ++ replies second :=
  List.filterMap_append

/-- Every reply is an effect. -/
theorem replies_eq_nil {journal : List Entry} (h : effects journal = []) :
    replies journal = [] := by
  apply List.filterMap_eq_nil_iff.mpr
  intro entry hmem
  have hentry := List.filter_eq_nil_iff.mp h entry hmem
  cases entry with
  | replied peer text => exact absurd rfl hentry
  | _ => rfl

theorem replies_of_isPreparation {journal : List Entry}
    (h : ∀ entry ∈ journal, entry.isPreparation = true) : replies journal = [] :=
  replies_eq_nil (effects_eq_nil fun entry hmem => Entry.isEffect_of_isPreparation (h entry hmem))

namespace Processor

variable {level : Nat} {nested : Message → Action Outcome} {message : Message}
  {arguments : Arguments} {descriptor : Descriptor} {name : String} {p : Processor}

/-- A command whose words, requirements and invocation come to a result comes to one itself. -/
theorem execute_returns
    (hbinding : ∃ bound, Binding.arguments (p.call level message) descriptor.name
      descriptor.parameters = .returned bound)
    (hbehind : ∀ arguments, Binding.arguments (p.call level message) descriptor.name
      descriptor.parameters = .returned (.ok arguments) →
        (∃ judged, (judgeAll level descriptor.name message arguments descriptor.allRequirements
          p).ending = .returned judged) ∧
        ∃ result, (invoke level nested descriptor arguments p).ending = .returned result) :
    ∃ result, (execute level nested descriptor message p).ending = .returned result := by
  obtain ⟨bound, hbound⟩ := hbinding
  have hwords := (bindWords_ending level descriptor message p).trans hbound
  unfold execute
  rw [Action.bind_of_returned hwords, bindWords_after]
  cases bound with
  | error fault => exact ⟨.error fault, rfl⟩
  | ok arguments =>
    obtain ⟨⟨judged, hjudged⟩, hinvoked⟩ := hbehind arguments hbound
    obtain ⟨_, hafter, _⟩ := judgeAll_spec level descriptor.name message arguments p
      descriptor.allRequirements
    dsimp only
    rw [Action.bind_of_returned hjudged, hafter]
    cases judged with
    | error fault => exact ⟨.error fault, rfl⟩
    | ok done => exact hinvoked

/-- Judging comes to a result if every validator does. -/
theorem judgeAll_returns {command : String} {requirements : List Value}
    (h : ∀ r ∈ requirements, ∃ answer,
      (p.validators.validate r message arguments).1 = .returned answer) :
    ∃ judged, (judgeAll level command message arguments requirements p).ending =
      .returned judged := by
  induction requirements with
  | nil => exact ⟨.ok (), rfl⟩
  | cons requirement rest ih =>
    obtain ⟨⟨answer, hanswer⟩, hrest⟩ := List.forall_mem_cons.mp h
    have hjudge : (judge level message arguments requirement p).ending = .returned answer :=
      hanswer
    have hafter : (judge level message arguments requirement p).after = p := rfl
    rw [judgeAll, Action.bind_of_returned hjudge, hafter]
    cases answer with
    | error fault => exact ⟨_, rfl⟩
    | ok accepted =>
      cases accepted with
      | true => exact ih hrest
      | false => exact ⟨_, rfl⟩

/-- A dispatch of a command that comes to a result comes to the outcome of that. -/
theorem dispatch_of_executed {result : Except Fault Unit}
    (hname : p.settings.detect? message.content = some name)
    (hresolve : p.commands.resolve name = some descriptor)
    (hresult : (execute level (dispatch level) descriptor message p).ending = .returned result) :
    (dispatch (level + 1) message p).ending = .returned (outcomeOf name message result) ∧
      (dispatch (level + 1) message p).after =
        (execute level (dispatch level) descriptor message p).after ∧
      replies (dispatch (level + 1) message p).journal =
        replies (execute level (dispatch level) descriptor message p).journal := by
  have hsettled : settle level (dispatch level) message p =
      perform level (dispatch level) descriptor name message p :=
    settle_of_resolved hname hresolve
  have hclosing : ∀ observers, replies (closing name message observers result) = [] :=
    fun observers => replies_eq_nil (effects_closing name message observers result)
  rw [dispatch_of_settled (hsettled.trans (perform_of_returned hresult))]
  refine ⟨rfl, rfl, ?_⟩
  rw [replies_append, replies_append, hclosing, List.append_nil]
  exact List.append_nil _

/-- Where words are bound and requirements accepted, the outcome and the replies are those of the
handler. -/
theorem dispatch_of_accepted {result : Except Cause Unit} {after : Processor}
    {journal : List Entry} (hname : p.settings.detect? message.content = some name)
    (hresolve : p.commands.resolve name = some descriptor)
    (hbound : Binding.arguments (p.call level message) descriptor.name descriptor.parameters =
      .returned (.ok arguments))
    (haccepted : ∀ r ∈ descriptor.allRequirements, p.validators.Accepts message arguments r)
    (hfactory : descriptor.factory = none)
    (hrun : (descriptor.body arguments).run (dispatch level) p =
      ⟨.returned result, after, journal⟩) :
    (dispatch (level + 1) message p).ending = .returned (outcomeOf name message (result.mapError
        (.handlerInvocation descriptor.name descriptor.owner descriptor.method))) ∧
      replies (dispatch (level + 1) message p).journal = replies journal := by
  have hbinds : p.Binds level message descriptor arguments :=
    ⟨Option.bind_eq_some_iff.mpr ⟨name, hname, hresolve⟩, hbound⟩
  have hinvoke : invoke level (dispatch level) descriptor arguments p = _ :=
    invoke_of_built hfactory arguments p
  rw [hrun] at hinvoke
  have hresult : (execute level (dispatch level) descriptor message p).ending =
      .returned (result.mapError
        (.handlerInvocation descriptor.name descriptor.owner descriptor.method)) := by
    rw [execute_ending_of_accepted hbinds haccepted, hinvoke]
    rfl
  obtain ⟨hending, -, hreplies⟩ := dispatch_of_executed hname hresolve hresult
  refine ⟨hending, hreplies.trans ?_⟩
  have hexecuted : Executed level (dispatch level) descriptor message p _ := execute_of_bound hbound
  generalize execute level (dispatch level) descriptor message p = run at hexecuted hresult
  cases hexecuted with
  | unbound hfault hbefore =>
    rw [hbound] at hfault
    cases hfault
  | refused hother hjudged hbefore =>
    obtain rfl := Except.ok.inj (Ending.returned.inj (hbound.symm.trans hother))
    obtain ⟨_, _, hok⟩ := judgeAll_spec level descriptor.name message arguments p
      descriptor.allRequirements
    rw [hok.mpr haccepted] at hjudged
    cases hjudged
  | broken hending hbefore => exact absurd hresult (hending _)
  | invoked hother hmet hbefore =>
    obtain rfl := Except.ok.inj (Ending.returned.inj (hbound.symm.trans hother))
    rw [replies_append, replies_of_isPreparation hbefore, hinvoke]
    rfl

/-- A command that has been executed is the one that the message names; its words could be bound,
and its requirements have been accepted. -/
theorem accepted_of_executed
    (h : (dispatch (level + 1) message p).ending = .returned (.executed name)) :
    ∃ descriptor arguments, p.settings.detect? message.content = some name ∧
      p.commands.resolve name = some descriptor ∧
      Binding.arguments (p.call level message) descriptor.name descriptor.parameters =
        .returned (.ok arguments) ∧
      ∀ r ∈ descriptor.allRequirements, p.validators.Accepts message arguments r := by
  have hcourse := dispatch_course level message p
  generalize dispatch (level + 1) message p = run at h hcourse
  cases hcourse with
  | ignored hcommand hrecord => cases h
  | broken hcommand hrun hending => exact absurd h (hending _)
  | @finished found descriptor result executed hname hcommand hrun hresult =>
    cases result with
    | error fault => cases h
    | ok done =>
      cases h
      obtain ⟨other, hother, hresolve⟩ := Option.bind_eq_some_iff.mp hcommand
      obtain rfl := Option.some.inj (hname.symm.trans hother)
      have hcases := execute_cases level (dispatch level) descriptor message p
      rw [hrun] at hcases
      cases hcases with
      | unbound hbound hbefore => cases hresult
      | refused hbound hjudged hbefore => cases hresult
      | broken hending hbefore => exact absurd hresult (hending _)
      | invoked hbound haccepted hbefore =>
        exact ⟨descriptor, _, hname, hresolve, hbound, haccepted⟩

end Processor

end ChatDispatch
