import ChatDispatch.Proofs.Dispatch.Course

/-!
What is reported of dispatches. The events of the log and the calls of observers are those that the
outcomes in the journal make due, and no others: none for a message that is ignored, one event for
a command that has run, and for a failure one event and one call of each observer that is
subscribed when the dispatch ends. Nested dispatches end first, and are reported first.
-/

namespace ChatDispatch

def Entry.isReport : Entry → Bool
  | .logged (.event _) | .observed .. => true
  | _ => false

def reports (journal : List Entry) : List Entry := journal.filter Entry.isReport

def Outcome.dueReports (settings : Settings) (observers : List Nat) (message : Message) :
    Outcome → List Entry
  | .ignored _ => []
  | .executed command =>
    [.logged (.event ⟨message.peer, .dispatched command (Redaction.redactLine message.content)⟩)]
  | .failed failure =>
    .logged (.event ⟨message.peer,
      .failed (settings.detect? message.content) (Redaction.redactLine message.content)
        failure.fault.stage.name (Redaction.redactLine failure.fault.message)⟩) ::
    observers.map fun observer => .observed observer ⟨message.content, failure.fault⟩

/-- The reports that the outcomes in a journal make due, in the order in which the dispatches have
ended, to the observers that were subscribed by then. -/
def dueReports (settings : Settings) : List Nat → List Entry → List Entry
  | _, [] => []
  | observers, .subscribed observer :: rest => dueReports settings (observers ++ [observer]) rest
  | observers, .concluded _ message outcome :: rest =>
    outcome.dueReports settings observers message ++ dueReports settings observers rest
  | observers, _ :: rest => dueReports settings observers rest

def subscribers : List Nat → List Entry → List Nat
  | observers, [] => observers
  | observers, .subscribed observer :: rest => subscribers (observers ++ [observer]) rest
  | observers, _ :: rest => subscribers observers rest

/-- The messages whose dispatches at this level have ended, with their outcomes. -/
def conclusionsAt (level : Nat) (journal : List Entry) : List (Message × Outcome) :=
  journal.filterMap fun entry =>
    match entry with
    | .concluded l message outcome => if l = level then some (message, outcome) else none
    | _ => none

/-- An entry that makes reports due, or says to whom they are due. -/
def Entry.isMilestone : Entry → Bool
  | .subscribed _ | .concluded .. => true
  | _ => false

def Entry.isPlain (entry : Entry) : Bool := !entry.isReport && !entry.isMilestone

section Journal

variable {settings : Settings} {observers : List Nat} {journal : List Entry}

theorem reports_append (first second : List Entry) :
    reports (first ++ second) = reports first ++ reports second :=
  List.filter_append ..

theorem subscribers_append (observers : List Nat) (first second : List Entry) :
    subscribers observers (first ++ second) = subscribers (subscribers observers first) second := by
  induction first generalizing observers with
  | nil => rfl
  | cons entry rest ih => cases entry <;> exact ih _

theorem dueReports_append (settings : Settings) (observers : List Nat)
    (first second : List Entry) :
    dueReports settings observers (first ++ second) =
      dueReports settings observers first ++
        dueReports settings (subscribers observers first) second := by
  induction first generalizing observers with
  | nil => rfl
  | cons entry rest ih =>
    cases entry with
    | concluded level message outcome =>
      have hrest := ih observers
      simp only [List.cons_append, dueReports, subscribers, hrest, List.append_assoc]
    | _ => exact ih _

theorem subscribers_of_no_milestone (h : ∀ entry ∈ journal, entry.isMilestone = false) :
    subscribers observers journal = observers := by
  induction journal with
  | nil => rfl
  | cons entry rest ih =>
    have hentry := h entry (List.mem_cons_self ..)
    have hrest := ih fun entry hmem => h entry (List.mem_cons_of_mem _ hmem)
    cases entry with
    | subscribed observer => cases hentry
    | _ => exact hrest

theorem dueReports_of_no_milestone (h : ∀ entry ∈ journal, entry.isMilestone = false) :
    dueReports settings observers journal = [] := by
  induction journal with
  | nil => rfl
  | cons entry rest ih =>
    have hentry := h entry (List.mem_cons_self ..)
    have hrest := ih fun entry hmem => h entry (List.mem_cons_of_mem _ hmem)
    cases entry with
    | subscribed observer => cases hentry
    | concluded level message outcome => cases hentry
    | _ => exact hrest

end Journal

/-- The reports of a run are those that are due, and the observers and settings that it leaves are
those that its journal tells of. -/
structure Run.Reported {α : Type} (p : Processor) (run : Run α) : Prop where
  reports : ChatDispatch.reports run.journal = dueReports p.settings p.observers run.journal
  observers : run.after.observers = subscribers p.observers run.journal
  settings : run.after.settings = p.settings

namespace Run.Reported

variable {α β : Type} {p : Processor}

theorem of_plain {run : Run α} (hplain : ∀ entry ∈ run.journal, entry.isPlain = true)
    (hobservers : run.after.observers = p.observers) (hsettings : run.after.settings = p.settings) :
    run.Reported p := by
  have hreports : ∀ entry ∈ run.journal, ¬ entry.isReport = true := by
    intro entry hmem
    have hentry := hplain entry hmem
    simp only [Entry.isPlain, Bool.and_eq_true, Bool.not_eq_true'] at hentry
    simp [hentry.1]
  have hmilestones : ∀ entry ∈ run.journal, entry.isMilestone = false := by
    intro entry hmem
    have hentry := hplain entry hmem
    simp only [Entry.isPlain, Bool.and_eq_true, Bool.not_eq_true'] at hentry
    exact hentry.2
  exact {
    reports := (List.filter_eq_nil_iff.mpr hreports).trans
      (dueReports_of_no_milestone hmilestones).symm
    observers := hobservers.trans (subscribers_of_no_milestone hmilestones).symm
    settings := hsettings }

/-- One run behind another. -/
theorem append {first : Run α} {ending : Ending β} {after : Processor} {journal : List Entry}
    (hfirst : first.Reported p) (hsecond : Run.Reported first.after ⟨ending, after, journal⟩) :
    Run.Reported p ⟨ending, after, first.journal ++ journal⟩ where
  reports := by
    have hreports := hsecond.reports
    dsimp only at hreports ⊢
    rw [reports_append, dueReports_append, hfirst.reports, hreports, hfirst.settings,
      hfirst.observers]
  observers := by
    have hobservers := hsecond.observers
    dsimp only at hobservers ⊢
    rw [hobservers, hfirst.observers, subscribers_append]
  settings := hsecond.settings.trans hfirst.settings

end Run.Reported

def Action.Reports (α : Type) (action : Action α) : Prop := ∀ p, (action p).Reported p

namespace Action

variable {α β : Type}

theorem Reports.bind {action : Action α} {next : α → Action β} (ha : Reports α action)
    (hn : ∀ value, Reports β (next value)) : Reports β (action >>= next) := by
  intro p
  rcases bind_cases action next p with ⟨value, _, hrun⟩ | ⟨_, hafter, hjournal⟩
  · rw [hrun]
    exact (ha p).append (hn value _)
  · have hfirst := ha p
    exact ⟨by rw [hjournal, hfirst.reports], by rw [hafter, hjournal, hfirst.observers],
      by rw [hafter, hfirst.settings]⟩

theorem Reports.ofEnding (ending : Ending α) : Reports α (ofEnding ending) :=
  fun _ => .of_plain (List.forall_mem_nil _) rfl rfl

theorem Reports.inspect {next : Processor → Action β} (h : ∀ p, Reports β (next p)) :
    Reports β (state >>= next) :=
  fun p => h p p

theorem Reports.enterAll {entries : List Entry} (h : ∀ entry ∈ entries, entry.isPlain = true) :
    Reports Unit (enterAll entries) :=
  fun _ => .of_plain h rfl rfl

theorem Reports.logAll {records : List LogRecord}
    (h : ∀ record ∈ records, (Entry.logged record).isPlain = true) :
    Reports Unit (logAll records) := by
  apply Reports.enterAll
  intro entry hmem
  obtain ⟨record, hrecord, rfl⟩ := List.mem_map.mp hmem
  exact h record hrecord

theorem Reports.log {record : LogRecord} (h : (Entry.logged record).isPlain = true) :
    Reports Unit (log record) :=
  Reports.enterAll (List.forall_mem_singleton.mpr h)

theorem Reports.update {change : Processor → Processor}
    (hobservers : ∀ p, (change p).observers = p.observers)
    (hsettings : ∀ p, (change p).settings = p.settings) : Reports Unit (update change) :=
  fun p => .of_plain (List.forall_mem_nil _) (hobservers p) (hsettings p)

theorem isPlain_of_isOfRegistration {record : LogRecord} (h : record.isOfRegistration) :
    (Entry.logged record).isPlain = true := by
  cases record <;> first | rfl | cases h

theorem Reports.reply (client : Client) (peer : Int) (text : String) :
    Reports _ (Processor.reply client peer text) := by
  refine (Reports.logAll ?_).bind fun _ => ?_
  · intro record hmem
    split at hmem
    · rw [List.mem_singleton.mp hmem]
      rfl
    · cases hmem
  · cases client.refuses peer text with
    | some cause => exact Reports.ofEnding _
    | none =>
      have hreplied : Reports Unit (enter (.replied peer text)) :=
        Reports.enterAll (List.forall_mem_singleton.mpr rfl)
      exact hreplied.bind fun _ => Reports.ofEnding _

theorem Reports.sleep (milliseconds : Nat) : Reports Unit (Processor.sleep milliseconds) := by
  intro p
  rw [Processor.sleep_apply]
  refine .of_plain (fun entry hmem => ?_) rfl rfl
  obtain ⟨timer, _, rfl⟩ := List.mem_map.mp hmem
  rfl

theorem Reports.scan (module : Module Program) : Reports _ (Processor.scan module) := by
  refine Reports.inspect fun p => (Reports.logAll ?_).bind fun _ => ?_
  · exact fun record hmem => isPlain_of_isOfRegistration
      (p.commands.scanLog_isOfRegistration module record hmem)
  · cases p.commands.scan module with
    | ok found =>
      exact Reports.bind (Reports.update (fun _ => rfl) fun _ => rfl) fun _ => Reports.ofEnding _
    | error fault => exact (Reports.log rfl).bind fun _ => Reports.ofEnding _

/-- The effects of handlers report nothing; the dispatches in them do. -/
theorem handling_reports : Handling Reports where
  bind ha hn := ha.bind hn
  ofEnding := Reports.ofEnding
  note _ := Reports.enterAll (List.forall_mem_singleton.mpr rfl)
  reply := Reports.reply
  sleep := Reports.sleep
  signal sent p := .of_plain (List.forall_mem_singleton.mpr rfl) rfl rfl
  scan := Reports.scan
  addConverter converter := by
    refine Reports.inspect fun p => (Reports.logAll ?_).bind fun _ =>
      Reports.update (fun _ => rfl) fun _ => rfl
    exact fun record hmem => isPlain_of_isOfRegistration
      (p.converters.registrationLog_isOfRegistration converter record hmem)
  addValidator validator := by
    refine Reports.inspect fun p => (Reports.logAll ?_).bind fun _ =>
      Reports.update (fun _ => rfl) fun _ => rfl
    exact fun record hmem => isPlain_of_isOfRegistration
      (p.validators.registrationLog_isOfRegistration validator record hmem)
  observe observer p := ⟨rfl, rfl, rfl⟩

end Action

theorem Entry.isPlain_of_isPreparation {entry : Entry} (h : entry.isPreparation = true) :
    entry.isPlain = true := by
  match entry with
  | .logged record => cases record <;> first | rfl | cases h
  | .noted _ | .called .. => rfl
  | .observed .. | .subscribed _ | .concluded .. => cases h
  | .replied .. | .signalled _ | .expired _ | .asked | .engaged | .released _ | .taken _ => rfl

namespace Processor

variable {level : Nat} {nested : Message → Action Outcome} {descriptor : Descriptor}
  {message : Message} {p : Processor}

theorem invoke_reports (hnested : ∀ message, Action.Reports _ (nested message))
    (descriptor : Descriptor) (arguments : Arguments) :
    Action.Reports _ (invoke level nested descriptor arguments) := by
  intro p
  cases hfactory : descriptor.factory with
  | some panic =>
    rw [invoke_of_panic hfactory]
    refine .of_plain (fun entry hmem => ?_) rfl rfl
    simp only [List.mem_cons, List.not_mem_nil, or_false] at hmem
    rcases hmem with rfl | rfl <;> rfl
  | none =>
    rw [invoke_of_built hfactory]
    have hrun := Action.handling_reports.run hnested (descriptor.body arguments) p
    exact ⟨hrun.reports, hrun.observers, hrun.settings⟩

theorem Executed.reported (hnested : ∀ message, Action.Reports _ (nested message))
    {run : Run (Except Fault Unit)} (h : Executed level nested descriptor message p run) :
    run.Reported p := by
  have hplain : ∀ {before : List Entry}, (∀ entry ∈ before, entry.isPreparation = true) →
      ∀ entry ∈ before, entry.isPlain = true :=
    fun hbefore entry hmem => Entry.isPlain_of_isPreparation (hbefore entry hmem)
  cases h with
  | unbound hbound hbefore => exact .of_plain (hplain hbefore) rfl rfl
  | refused hbound hjudged hbefore => exact .of_plain (hplain hbefore) rfl rfl
  | broken hending hbefore => exact .of_plain (hplain hbefore) rfl rfl
  | @invoked arguments before hbound haccepted hbefore =>
    have hfirst : Run.Reported p ⟨.returned (), p, before⟩ :=
      .of_plain (hplain hbefore) rfl rfl
    exact hfirst.append (invoke_reports hnested descriptor arguments p)

theorem not_isMilestone_of_mem_closing {name : String} {observers : List Nat}
    {result : Except Fault Unit} {entry : Entry}
    (h : entry ∈ closing name message observers result) : entry.isMilestone = false := by
  cases result with
  | ok done =>
    rw [List.mem_singleton.mp h]
    rfl
  | error fault =>
    simp only [closing, List.mem_cons, List.mem_map] at h
    rcases h with rfl | rfl | ⟨observer, _, rfl⟩ <;> rfl

/-- Behind the run of a command stands what is due for its outcome. -/
theorem reports_closing {name : String} (result : Except Fault Unit)
    (hname : p.settings.detect? message.content = some name) :
    reports (closing name message p.observers result) =
      (outcomeOf name message result).dueReports p.settings p.observers message := by
  cases result with
  | ok done => rfl
  | error fault =>
    have hobserved : reports (p.observers.map fun observer =>
        .observed observer ⟨message.content, fault⟩) =
          p.observers.map fun observer => .observed observer ⟨message.content, fault⟩ := by
      apply List.filter_eq_self.mpr
      intro entry hmem
      obtain ⟨observer, _, rfl⟩ := List.mem_map.mp hmem
      rfl
    simp only [outcomeOf, Outcome.dueReports, hname]
    exact congrArg (_ :: ·) hobserved

theorem closing_reported (level : Nat) {name : String} (result : Except Fault Unit)
    (hname : p.settings.detect? message.content = some name) :
    Run.Reported p ⟨.returned (outcomeOf name message result), p,
      closing name message p.observers result ++
        [.concluded level message (outcomeOf name message result)]⟩ := by
  have hmilestones : ∀ entry ∈ closing name message p.observers result,
      entry.isMilestone = false := fun entry => not_isMilestone_of_mem_closing
  refine ⟨?_, ?_, rfl⟩ <;> dsimp only
  · rw [reports_append, dueReports_append, reports_closing result hname,
      dueReports_of_no_milestone hmilestones, subscribers_of_no_milestone hmilestones]
    simp [reports, dueReports, Entry.isReport]
  · rw [subscribers_append, subscribers_of_no_milestone hmilestones]
    rfl

/-- A dispatch reports what is due; the induction is on how deep dispatches may still be nested. -/
theorem dispatch_reports (depth : Nat) (message : Message) :
    Action.Reports _ (dispatch depth message) := by
  induction depth generalizing message with
  | zero => exact Action.Reports.ofEnding _
  | succ level ih =>
    intro p
    have hcourse := dispatch_course level message p
    generalize dispatch (level + 1) message p = run at hcourse ⊢
    cases hcourse with
    | ignored hcommand hrecord =>
      refine ⟨?_, ?_, rfl⟩ <;> rcases hrecord with rfl | ⟨name, rfl⟩ <;> rfl
    | @finished name descriptor result executed hname hcommand hrun hresult =>
      have hexecuted : executed.Reported p :=
        Executed.reported ih (hrun ▸ execute_cases level (dispatch level) descriptor message p)
      rw [← hexecuted.settings] at hname
      exact hexecuted.append (closing_reported level result hname)
    | @broken descriptor ending executed hcommand hrun hending =>
      have hexecuted : executed.Reported p :=
        Executed.reported ih (hrun ▸ execute_cases level (dispatch level) descriptor message p)
      exact ⟨hexecuted.reports, hexecuted.observers, hexecuted.settings⟩

theorem mapM_dispatch_reports (depth : Nat) (messages : List Message) :
    Action.Reports _ (messages.mapM (dispatch depth)) := by
  induction messages with
  | nil => exact Action.Reports.ofEnding _
  | cons message rest ih =>
    rw [List.mapM_cons]
    exact (dispatch_reports depth message).bind fun _ => ih.bind fun _ => Action.Reports.ofEnding _

theorem conclusionsAt_append (level : Nat) (first second : List Entry) :
    conclusionsAt level (first ++ second) =
      conclusionsAt level first ++ conclusionsAt level second :=
  List.filterMap_append

theorem conclusionsAt_eq_nil {journal : List Entry}
    (h : ∀ entry ∈ journal, ∀ message outcome, entry ≠ .concluded level message outcome) :
    conclusionsAt level journal = [] := by
  apply List.filterMap_eq_nil_iff.mpr
  intro entry hmem
  have hentry := h entry hmem
  cases entry with
  | concluded l message outcome =>
    by_cases hl : l = level
    · subst hl
      exact absurd rfl (hentry message outcome)
    · simp [hl]
  | _ => rfl

/-- In the run of a command, dispatches end at lower levels only. -/
theorem conclusionsAt_execute (level : Nat) (descriptor : Descriptor) (message : Message)
    (p : Processor) :
    conclusionsAt level (execute level (dispatch level) descriptor message p).journal = [] := by
  have hpreparation : ∀ {before : List Entry}, (∀ entry ∈ before, entry.isPreparation = true) →
      conclusionsAt level before = [] := by
    intro before hbefore
    apply conclusionsAt_eq_nil
    rintro entry hmem message outcome rfl
    cases hbefore _ hmem
  have hcases := execute_cases level (dispatch level) descriptor message p
  generalize execute level (dispatch level) descriptor message p = run at hcases ⊢
  cases hcases with
  | unbound hbound hbefore => exact hpreparation hbefore
  | refused hbound hjudged hbefore => exact hpreparation hbefore
  | broken hending hbefore => exact hpreparation hbefore
  | @invoked arguments before hbound haccepted hbefore =>
    rw [conclusionsAt_append, hpreparation hbefore, List.nil_append]
    cases hfactory : descriptor.factory with
    | some panic =>
      rw [invoke_of_panic hfactory]
      rfl
    | none =>
      have hclosed := Action.closed_adds level fun _ => id
      have hnested := hclosed.dispatch level (Nat.le_refl level)
      have hhandler := hclosed.run hnested (descriptor.body arguments) p
      have hrun : conclusionsAt level
          ((descriptor.body arguments).run (dispatch level) p).journal = [] := by
        apply conclusionsAt_eq_nil
        rintro entry hmem message outcome rfl
        exact absurd (hhandler _ hmem).2 (Nat.lt_irrefl level)
      rw [invoke_of_built hfactory]
      exact hrun

/-- A dispatch that returns an outcome says so in the journal, once. -/
theorem conclusionsAt_dispatch {outcome : Outcome}
    (h : (dispatch (level + 1) message p).ending = .returned outcome) :
    conclusionsAt level (dispatch (level + 1) message p).journal = [(message, outcome)] := by
  have hcourse := dispatch_course level message p
  generalize dispatch (level + 1) message p = run at h hcourse ⊢
  cases hcourse with
  | ignored hcommand hrecord =>
    obtain rfl := Ending.returned.inj h
    simp [conclusionsAt]
  | @finished name descriptor result executed hname hcommand hrun hresult =>
    obtain rfl := Ending.returned.inj h
    have hexecute := conclusionsAt_execute level descriptor message p
    have hclosing : conclusionsAt level
        (closing name message executed.after.observers result) = [] := by
      apply conclusionsAt_eq_nil
      rintro entry hmem other outcome rfl
      cases not_isMilestone_of_mem_closing hmem
    rw [hrun] at hexecute
    rw [conclusionsAt_append, hexecute, conclusionsAt_append, hclosing]
    simp [conclusionsAt]
  | broken hcommand hrun hending => exact absurd h (hending outcome)

theorem conclusionsAt_mapM_dispatch {messages : List Message} {outcomes : List Outcome}
    (h : (messages.mapM (dispatch (level + 1)) p).ending = .returned outcomes) :
    conclusionsAt level (messages.mapM (dispatch (level + 1)) p).journal =
      messages.zip outcomes := by
  induction messages generalizing p outcomes with
  | nil => rfl
  | cons message rest ih =>
    rw [List.mapM_cons] at h ⊢
    obtain ⟨outcome, houtcome, hrest, hrun⟩ := Action.exists_of_bind_returned h
    obtain ⟨others, hothers, hall, hrunRest⟩ := Action.exists_of_bind_returned hrest
    obtain rfl : outcome :: others = outcomes := Ending.returned.inj hall
    rw [hrun, conclusionsAt_append, conclusionsAt_dispatch houtcome, hrunRest,
      conclusionsAt_append, ih hothers]
    simp [conclusionsAt]

/-- The dispatches of a sequence of messages, and those nested in them, put into the journal the
reports that are due for their outcomes and no others; and the outcomes that the journal gives for
the messages of the sequence are those that they have come to. -/
theorem dispatches_report_as_due (level : Nat) (messages : List Message) (p : Processor) :
    reports (messages.mapM (dispatch (level + 1)) p).journal =
      dueReports p.settings p.observers (messages.mapM (dispatch (level + 1)) p).journal ∧
    ∀ outcomes, (messages.mapM (dispatch (level + 1)) p).ending = .returned outcomes →
      conclusionsAt level (messages.mapM (dispatch (level + 1)) p).journal =
        messages.zip outcomes :=
  ⟨(mapM_dispatch_reports (level + 1) messages p).reports,
    fun _ => conclusionsAt_mapM_dispatch⟩

def failingModule : Module Program where
  owner := "Failing"
  methods := [
    { name := "inner"
      command := some "inner"
      parameters := [.message, .client]
      body := fun _ => .fail ⟨"inner", []⟩ },
    { name := "outer"
      command := some "outer"
      parameters := [.message, .client]
      body := fun _ => .observe 2 (.dispatch { text := some "/inner" } fun _ =>
        .fail ⟨"outer", []⟩) }]

def watchedProcessor : Processor := { serving failingModule with observers := [1] }

def outerMessage : Message := { text := some "/outer" }

/-- The failure of the nested dispatch is reported first, and the new observer sees both. -/
theorem reports_of_outer :
    ∃ outcomes, ([outerMessage].mapM (dispatch 2) watchedProcessor).ending = .returned outcomes ∧
      conclusionsAt 1 ([outerMessage].mapM (dispatch 2) watchedProcessor).journal =
        [outerMessage].zip outcomes ∧
      (reports ([outerMessage].mapM (dispatch 2) watchedProcessor).journal).filterMap
          (fun entry => match entry with
            | .observed observer failure => some (observer, failure.line)
            | _ => none) =
        [(1, "/inner"), (2, "/inner"), (1, "/outer"), (2, "/outer")] := by
  have hreturned : ([outerMessage].mapM (dispatch 2) watchedProcessor).ending =
      .returned [.failed ⟨"/outer", .handlerInvocation "outer" "Failing" "outer"
        ⟨"outer", []⟩⟩] := by rfl
  obtain ⟨hreports, hconclusions⟩ := dispatches_report_as_due 1 [outerMessage] watchedProcessor
  refine ⟨_, hreturned, hconclusions _ hreturned, ?_⟩
  rw [hreports]
  rfl

end Processor

end ChatDispatch
