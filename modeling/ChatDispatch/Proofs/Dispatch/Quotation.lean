import ChatDispatch.Proofs.Binding.Stopping
import ChatDispatch.Proofs.Dispatch.Faults
import ChatDispatch.Proofs.Redaction.Words

/-!
What the log tells of a message whose words could not be converted. The event holds the redacted
text and, beside it, a redacted report that quotes one word out of the text. The report is redacted
on its own, so it shows the word as the text does only as far as the word is redacted for itself: a
credential that is announced by the words before it is shown, and a parameter that is assigned a
value at the end of the word takes the closing quote with it.
-/

namespace ChatDispatch

open Redaction

def loggedEvents (journal : List Entry) : List EventEntry :=
  journal.filterMap fun entry =>
    match entry with
    | .logged (.event entry) => some entry
    | _ => none

theorem loggedEvents_append (first second : List Entry) :
    loggedEvents (first ++ second) = loggedEvents first ++ loggedEvents second :=
  List.filterMap_append

theorem loggedEvents_eq_nil {journal : List Entry}
    (h : ∀ entry ∈ journal, ∀ event, entry ≠ .logged (.event event)) :
    loggedEvents journal = [] := by
  apply List.filterMap_eq_nil_iff.mpr
  intro entry hmem
  have hentry := h entry hmem
  match entry with
  | .logged record =>
    cases record with
    | event event => exact absurd rfl (hentry event)
    | _ => rfl
  | .replied .. | .noted _ | .subscribed _ | .observed .. | .signalled _ | .expired _ => rfl
  | .asked | .engaged | .released _ | .taken _ | .called .. | .concluded .. => rfl

def quotation (word : List Char) (target : ValueType) : String :=
  redactLine (Fault.parameterConversion (String.ofList word) target ⟨"", []⟩).message

theorem toList_quoted (lead closing name : String) (word : List Char) :
    (lead ++ String.ofList word ++ closing ++ name).toList =
      lead.toList ++ word ++ closing.toList ++ name.toList := by
  rw [String.toList_append, String.toList_append, String.toList_append, String.toList_ofList]

theorem toList_message_parameterConversion (word : List Char) (target : ValueType)
    (cause : Cause) :
    (Fault.parameterConversion (String.ofList word) target cause).message.toList =
      quotationLead ++ (word ++ ['\'']) ++ ' ' :: ("to " ++ target.name).toList := by
  have hclosing : ∀ lead : List Char, lead ++ word ++ "' to ".toList ++ target.name.toList =
      lead ++ (word ++ ['\'']) ++ ' ' :: ("to " ++ target.name).toList := by
    intro lead
    have hquote : "' to ".toList = ['\''] ++ ' ' :: "to ".toList := by rfl
    rw [hquote, String.toList_append]
    simp only [List.append_assoc, List.cons_append, List.nil_append]
  exact (toList_quoted _ _ _ _).trans (hclosing _)

theorem toList_quotation {word : List Char} (h : ¬ AnnouncesCredential word)
    (target : ValueType) :
    (quotation word target).toList = quotationLead ++ shownWord (word ++ ['\'']) ++
      ' ' :: redactText ("to " ++ target.name).toList := by
  rw [quotation, redactLine, String.toList_ofList, toList_message_parameterConversion,
    redactText_quotation h]

/-- Two words that are shown alike are quoted alike if both of them end in an assignment to a secret
parameter, or neither does, and only then. -/
theorem quotation_eq_iff {word other : List Char} (h : shownWord word = shownWord other)
    (hword : ¬ AnnouncesCredential word) (hother : ¬ AnnouncesCredential other)
    (target : ValueType) :
    quotation word target = quotation other target ↔
      (EndsInAssignment word ↔ EndsInAssignment other) := by
  rw [← String.toList_inj, toList_quotation hword, toList_quotation hother,
    List.append_cancel_right_eq, List.append_cancel_left_eq, shownWord_quoted_eq_iff h]

namespace Processor

variable {level : Nat} {p : Processor} {message other : Message} {name : String}
  {before : List Parameter} {word word' : List Char} {target target' : ValueType}

/-- The dispatch of a message fails at one parameter of the command that it names: those before it
have been bound, and this word could not be converted to its type. -/
structure FailsAt (p : Processor) (level : Nat) (message : Message) (name : String)
    (before : List Parameter) (word : List Char) (target : ValueType) : Prop where
  named : p.settings.detect? message.content = some name
  stopped : ∃ descriptor parameter after, p.commands.resolve name = some descriptor ∧
    descriptor.parameters = before ++ parameter :: after ∧
    (Binding.bind (p.call level message) descriptor.name
      descriptor.parameters).arguments.length = before.length
  failed : ∃ cause, (dispatch (level + 1) message p).ending =
    .returned (.failed ⟨message.content,
      .parameterConversion (String.ofList word) target cause⟩)

theorem not_event_of_isPreparation {entry : Entry} (h : entry.isPreparation = true)
    (event : EventEntry) : entry ≠ .logged (.event event) := by
  rintro rfl
  cases h

/-- Nothing is invoked where words cannot be bound, so the only event is that of the failure. -/
theorem loggedEvents_of_failed {failure : Failure}
    (hname : p.settings.detect? message.content = some name)
    (hfailed : (dispatch (level + 1) message p).ending = .returned (.failed failure))
    (hbinding : failure.fault.isOfBinding = true) :
    ∃ descriptor, p.command? message = some descriptor ∧
      Binding.arguments (p.call level message) descriptor.name descriptor.parameters =
        .returned (.error failure.fault) ∧
      loggedEvents (dispatch (level + 1) message p).journal =
        [⟨message.peer, .failed (some name) (redactLine message.content) failure.fault.stage.name
          (redactLine failure.fault.message)⟩] := by
  have hstage := Fault.stage_of_isOfBinding hbinding
  have hcourse := dispatch_course level message p
  generalize dispatch (level + 1) message p = run at hfailed hcourse ⊢
  cases hcourse with
  | ignored hcommand hrecord => cases hfailed
  | broken hcommand hrun hending => exact absurd hfailed (hending _)
  | @finished named descriptor result executed hnamed hcommand hrun hresult =>
    obtain rfl : named = name := Option.some.inj (hnamed.symm.trans hname)
    have hcases := execute_cases level (dispatch level) descriptor message p
    rw [hrun] at hcases
    cases result with
    | ok done => cases hfailed
    | error fault =>
      cases hfailed
      cases hcases with
      | @unbound other before hbound hbefore =>
        obtain rfl : other = fault := Except.error.inj (Ending.returned.inj hresult)
        refine ⟨descriptor, hcommand, hbound, ?_⟩
        have hobserved : loggedEvents (p.observers.map fun observer =>
            .observed observer ⟨message.content, other⟩) = [] := by
          apply loggedEvents_eq_nil
          intro entry hmem event
          obtain ⟨observer, _, rfl⟩ := List.mem_map.mp hmem
          exact nofun
        rw [loggedEvents_append, loggedEvents_append, loggedEvents_eq_nil fun entry hmem =>
          not_event_of_isPreparation (hbefore entry hmem)]
        exact congrArg (fun events => [EventEntry.mk _ _] ++ events ++ []) hobserved
      | refused hbound hjudged hbefore =>
        obtain rfl := Except.error.inj (Ending.returned.inj hresult)
        rw [stage_of_judgeAll hjudged] at hstage
        cases hstage
      | broken hending hbefore => exact absurd hresult (hending _)
      | invoked hbound haccepted hbefore =>
        obtain ⟨cause, rfl, _⟩ := fault_of_invoke hresult
        cases hbinding

/-- What can be told of a dispatch that fails at a parameter: the parameter converts a word, the
word is the one of its turn in the line, and the event quotes it. -/
theorem FailsAt.spec (h : p.FailsAt level message name before word target) :
    ∃ descriptor parameter after, p.commands.resolve name = some descriptor ∧
      descriptor.parameters = before ++ parameter :: after ∧
      parameter.kind = .converted target ∧
      (Text.pieces ' ' message.content.toList)[before.countP Parameter.takesWord + 1]? =
        some word ∧
      loggedEvents (dispatch (level + 1) message p).journal =
        [⟨message.peer, .failed (some name) (redactLine message.content) "parse"
          (quotation word target)⟩] := by
  obtain ⟨descriptor, parameter, after, hresolve, hparameters, hlength⟩ := h.stopped
  obtain ⟨cause, hfailed⟩ := h.failed
  obtain ⟨found, hfound, hbound, hevents⟩ := loggedEvents_of_failed h.named hfailed rfl
  obtain rfl : descriptor = found := by
    rw [command?, h.named] at hfound
    exact Option.some.inj (hresolve.symm.trans hfound)
  obtain ⟨before', stopped, after', hsplit, hlength', hkind, hword⟩ :=
    Binding.exists_of_arguments_parameterConversion hbound
  have hsame := List.append_inj (hparameters.symm.trans hsplit) (hlength.symm.trans hlength')
  obtain rfl := hsame.1
  obtain ⟨rfl, rfl⟩ := List.cons.inj hsame.2
  rw [String.toList_ofList] at hword
  exact ⟨descriptor, parameter, after, hresolve, hparameters, hkind, hword, hevents⟩

/-- Two messages of one conversation whose texts look alike in the log, and whose dispatches fail at
the same parameter of the same command: their events agree in everything but the report. Where
neither text announces a credential up to the end of the word that is quoted, the reports agree if
both of these words end in an assignment to a secret parameter, or neither does, and only then. -/
theorem failed_events_agree (hpeer : message.peer = other.peer)
    (hredacted : redactLine message.content = redactLine other.content)
    (h : p.FailsAt level message name before word target)
    (h' : p.FailsAt level other name before word' target') :
    ∃ report report',
      loggedEvents (dispatch (level + 1) message p).journal =
        [⟨message.peer, .failed (some name) (redactLine message.content) "parse" report⟩] ∧
      loggedEvents (dispatch (level + 1) other p).journal =
        [⟨message.peer, .failed (some name) (redactLine message.content) "parse" report'⟩] ∧
      ∀ number, number = before.countP Parameter.takesWord + 1 →
        (Text.pieces ' ' message.content.toList)[number]? = some word ∧
        (Text.pieces ' ' other.content.toList)[number]? = some word' ∧
        (¬ AnnouncesCredential (upToWord number message.content.toList) →
          ¬ AnnouncesCredential (upToWord number other.content.toList) →
          (report = report' ↔ (EndsInAssignment word ↔ EndsInAssignment word'))) := by
  obtain ⟨descriptor, parameter, after, hresolve, hparameters, hkind, hword, hevents⟩ := h.spec
  obtain ⟨_, _, _, hresolve', hparameters', hkind', hword', hevents'⟩ := h'.spec
  obtain rfl := Option.some.inj (hresolve.symm.trans hresolve')
  obtain ⟨rfl, rfl⟩ := List.cons.inj
    (List.append_cancel_left (hparameters.symm.trans hparameters'))
  obtain rfl := ParameterKind.converted.inj (hkind.symm.trans hkind')
  rw [← hpeer, ← hredacted] at hevents'
  refine ⟨_, _, hevents, hevents', ?_⟩
  rintro number rfl
  refine ⟨hword, hword', fun hclean hclean' => ?_⟩
  have hlines : redactText message.content.toList = redactText other.content.toList := by
    have hlists := congrArg String.toList hredacted
    rwa [redactLine, redactLine, String.toList_ofList, String.toList_ofList] at hlists
  have hshown := getElem?_pieces_redactText hword hclean
  rw [hlines, getElem?_pieces_redactText hword' hclean'] at hshown
  have hword_clean : ∀ {line word : List Char} {number : Nat},
      (Text.pieces ' ' line)[number]? = some word → ¬ AnnouncesCredential (upToWord number line) →
        ¬ AnnouncesCredential word :=
    fun hword hclean hmark => hclean (hmark.mono (suffix_upToWord hword).isInfix)
  exact quotation_eq_iff (Option.some.inj hshown).symm (hword_clean hword hclean)
    (hword_clean hword' hclean') target

def numberModule : Module Program where
  owner := "Number"
  methods := [{
    name := "number"
    command := some "number"
    parameters := [.message, .client, .converted "unit" .text, .converted "amount" .int32]
    body := fun _ => .done }]

def beforeAmount : List Parameter := [.message, .client, .converted "unit" .text]

def numberMessage (words : String) : Message := { text := some ("/number " ++ words) }

theorem failsAt_amount_assigned :
    (serving numberModule).FailsAt 0 (numberMessage "key=a token=b") "number" beforeAmount
        "token=b".toList .int32 ∧
      (serving numberModule).FailsAt 0 (numberMessage "key=c token=d") "number" beforeAmount
        "token=d".toList .int32 :=
  ⟨⟨by decide +kernel, ⟨_, _, _, rfl, rfl, rfl⟩, ⟨_, rfl⟩⟩,
    ⟨by decide +kernel, ⟨_, _, _, rfl, rfl, rfl⟩, ⟨_, rfl⟩⟩⟩

/-- Values that are assigned at the end of the quoted words are not told apart. -/
theorem reports_of_assigned_amounts :
    ∃ report,
      loggedEvents (dispatch 1 (numberMessage "key=a token=b") (serving numberModule)).journal =
        [⟨0, .failed (some "number") (redactLine "/number key=a token=b") "parse" report⟩] ∧
      loggedEvents (dispatch 1 (numberMessage "key=c token=d") (serving numberModule)).journal =
        [⟨0, .failed (some "number") (redactLine "/number key=a token=b") "parse" report⟩] := by
  have hpeer : (numberMessage "key=a token=b").peer = (numberMessage "key=c token=d").peer := rfl
  have hredacted : redactLine (numberMessage "key=a token=b").content =
      redactLine (numberMessage "key=c token=d").content := by decide +kernel
  obtain ⟨hfails, hfails'⟩ := failsAt_amount_assigned
  obtain ⟨report, report', hevents, hevents', hreports⟩ :=
    failed_events_agree hpeer hredacted hfails hfails'
  obtain ⟨-, -, hagree⟩ := hreports _ rfl
  have hclean : ¬ AnnouncesCredential
      (upToWord 2 (numberMessage "key=a token=b").content.toList) :=
    not_announces_of_not_mem (by decide +kernel)
  have hclean' : ¬ AnnouncesCredential
      (upToWord 2 (numberMessage "key=c token=d").content.toList) :=
    not_announces_of_not_mem (by decide +kernel)
  have hends : EndsInAssignment "token=b".toList :=
    ⟨"token".toList, by decide, ['b'], List.forall_mem_singleton.mpr (by decide),
      by decide +kernel⟩
  have hends' : EndsInAssignment "token=d".toList :=
    ⟨"token".toList, by decide, ['d'], List.forall_mem_singleton.mpr (by decide),
      by decide +kernel⟩
  obtain rfl := (hagree hclean hclean').mpr (iff_of_true hends hends')
  exact ⟨report, hevents, hevents'⟩

/-- A credential that is announced by the word before is hidden in the text but not in the report:
two messages that differ only in their text, which looks alike in the log, give different events. -/
theorem events_of_announced_amounts :
    numberMessage "Bearer abc" =
      { numberMessage "Bearer [REDACTED_TOKEN]" with text := (numberMessage "Bearer abc").text } ∧
    redactLine (numberMessage "Bearer abc").content =
      redactLine (numberMessage "Bearer [REDACTED_TOKEN]").content ∧
    (serving numberModule).FailsAt 0 (numberMessage "Bearer abc") "number" beforeAmount
      "abc".toList .int32 ∧
    (serving numberModule).FailsAt 0 (numberMessage "Bearer [REDACTED_TOKEN]") "number"
      beforeAmount "[REDACTED_TOKEN]".toList .int32 ∧
    loggedEvents (dispatch 1 (numberMessage "Bearer abc") (serving numberModule)).journal ≠
      loggedEvents (dispatch 1 (numberMessage "Bearer [REDACTED_TOKEN]")
        (serving numberModule)).journal := by
  have hshown : (serving numberModule).FailsAt 0 (numberMessage "Bearer abc") "number"
      beforeAmount "abc".toList .int32 :=
    ⟨by decide +kernel, ⟨_, _, _, rfl, rfl, rfl⟩, ⟨_, rfl⟩⟩
  have hhidden : (serving numberModule).FailsAt 0 (numberMessage "Bearer [REDACTED_TOKEN]")
      "number" beforeAmount "[REDACTED_TOKEN]".toList .int32 :=
    ⟨by decide +kernel, ⟨_, _, _, rfl, rfl, rfl⟩, ⟨_, rfl⟩⟩
  have hreports : quotation "abc".toList .int32 ≠ quotation "[REDACTED_TOKEN]".toList .int32 := by
    decide +kernel
  refine ⟨rfl, by decide +kernel, hshown, hhidden, fun hsame => ?_⟩
  obtain ⟨_, _, _, _, _, _, _, hevents⟩ := hshown.spec
  obtain ⟨_, _, _, _, _, _, _, hevents'⟩ := hhidden.spec
  rw [hevents, hevents'] at hsame
  simp only [List.cons.injEq, EventEntry.mk.injEq, CommandEvent.failed.injEq] at hsame
  exact hreports hsame.1.2.2.2.2

end Processor

end ChatDispatch
