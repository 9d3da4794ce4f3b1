import ChatDispatch.Proofs.Dispatch.Reports
import ChatDispatch.Proofs.Listening.Releases

/-!
How long a loop waits after errors. Of everything that a loop does between two marks the journal
says in front of the first one what it engages in: a batch of some length, or a wait of some time.
Each turn engages in one thing at most. It hands on the wait that stands next: the initial one
behind a batch, and behind a wait twice as much, but no more than the limit.
-/

namespace ChatDispatch

def engagement? : Entry → List Entry → Option LogRecord
  | .logged record, .engaged :: _ => some record
  | _, _ => none

def engagements : List Entry → List LogRecord
  | [] => []
  | entry :: rest => (engagement? entry rest).toList ++ engagements rest

def LogRecord.wait? : LogRecord → Option Nat
  | .fetchFailed _ wait => some wait
  | _ => none

def retryWaits (journal : List Entry) : List Nat := (engagements journal).filterMap LogRecord.wait?

section Journal

theorem engagement?_eq_none {entry : Entry} {rest : List Entry} (h : rest.head? ≠ some .engaged) :
    engagement? entry rest = none := by
  unfold engagement?
  split
  · exact absurd rfl h
  · rfl

/-- Two journals can be read one after the other, unless the cut is right before such a mark. -/
theorem engagements_append (first : List Entry) {second : List Entry}
    (h : second.head? ≠ some .engaged) :
    engagements (first ++ second) = engagements first ++ engagements second := by
  induction first with
  | nil => rfl
  | cons entry rest ih =>
    have hhead : engagement? entry (rest ++ second) = engagement? entry rest := by
      cases rest with
      | nil => rw [List.nil_append, engagement?_eq_none h, engagement?_eq_none (by simp)]
      | cons next rest => cases entry <;> cases next <;> rfl
    rw [List.cons_append, engagements, engagements, hhead, ih, List.append_assoc]

theorem engagements_eq_nil {journal : List Entry} (h : ∀ entry ∈ journal, entry.isMark = false) :
    engagements journal = [] := by
  induction journal with
  | nil => rfl
  | cons entry rest ih =>
    have hrest := fun entry hmem => h entry (List.mem_cons_of_mem _ hmem)
    have hhead : rest.head? ≠ some .engaged := by
      intro hengaged
      exact Bool.noConfusion (hrest _ (List.mem_of_mem_head? hengaged))
    rw [engagements, engagement?_eq_none hhead, ih hrest]
    rfl

/-- What is done behind such a mark, up to the next one, engages in nothing else. -/
theorem engagements_marked {journal behind : List Entry}
    (hjournal : ∀ entry ∈ journal, entry.isMark = false) (hhead : behind.head? ≠ some .engaged)
    (record : LogRecord) :
    engagements (.logged record :: (.engaged :: journal ++ behind)) =
      record :: engagements behind := by
  have hengaged : engagements (.logged record :: .engaged :: journal) =
      record :: engagements journal := rfl
  rw [← List.cons_append, engagements_append _ hhead, hengaged, engagements_eq_nil hjournal]
  rfl

/-- A fetch engages in nothing. -/
theorem Processor.Waits.engagements {p q : Processor} {journal behind : List Entry}
    (h : p.Waits journal q) (hhead : behind.head? ≠ some .engaged) :
    engagements (.asked :: journal ++ behind) = engagements behind := by
  have hasked : ChatDispatch.engagements (.asked :: journal) = ChatDispatch.engagements journal :=
    rfl
  rw [engagements_append _ hhead, hasked, engagements_eq_nil h.isMark, List.nil_append]

theorem retryWaits_append (first : List Entry) {second : List Entry}
    (h : second.head? ≠ some .engaged) :
    retryWaits (first ++ second) = retryWaits first ++ retryWaits second := by
  unfold retryWaits
  rw [engagements_append first h, List.filterMap_append]

end Journal

/-- The dispatch of a batch leaves the settings as they are. -/
theorem Processor.dispatchBatch_settings (depth : Nat) (updates : List Update) (p : Processor) :
    (dispatchBatch depth updates p).after.settings = p.settings := by
  have hupdate : ∀ update, Action.Reports _ (dispatchUpdate depth update) := by
    intro update
    have htaken : Action.Reports Unit (Action.enter (.taken update)) :=
      .enterAll (List.forall_mem_singleton.mpr rfl)
    refine htaken.bind fun _ => ?_
    cases update.message? with
    | some message => exact dispatch_reports depth message
    | none => exact (Action.Reports.log rfl).bind fun _ => .ofEnding _
  have hbatch : Action.Reports _ (dispatchBatch depth updates) := by
    induction updates with
    | nil => exact .ofEnding _
    | cons update rest ih => exact (hupdate update).bind fun _ => ih.bind fun _ => .ofEnding _
  exact (hbatch p).settings

namespace Listening

open ChatDispatch.Action

/-- What is done in an engagement sets no further marks up to its end. -/
theorem Engaged.engagements {depth : Nat} {answer : Answer} {p : Processor}
    {run : Run (Option Nat)} (h : Engaged depth answer p run) (record : LogRecord) :
    engagements (.logged record :: run.journal) = [record] := by
  cases h with
  | dispatched hanswer hreturned =>
    exact engagements_marked (Processor.dispatchBatch_isMark depth _ _) (by simp) record
  | broken hanswer hbroken hending =>
    rw [← List.append_nil (_ :: _)]
    exact engagements_marked (Processor.dispatchBatch_isMark depth _ _) (by simp) record
  | waited hanswer hwaits => exact engagements_marked hwaits.isMark (by simp) record
  | abandoned hanswer hwaits htripped => exact engagements_marked hwaits.isMark (by simp) record
  | hung hanswer hwaits =>
    rw [← List.append_nil (_ :: _)]
    exact engagements_marked hwaits.isMark (by simp) record

theorem Engaged.settings {depth : Nat} {answer : Answer} {p : Processor}
    {run : Run (Option Nat)} (h : Engaged depth answer p run) :
    run.after.settings = p.settings := by
  have hstate : ∀ {journal : List Entry} {q : Processor}, p.Waits journal q →
      q.settings = p.settings := fun hwaits => by rw [hwaits.state]
  cases h with
  | dispatched hanswer hreturned => exact Processor.dispatchBatch_settings depth _ p
  | broken hanswer hbroken hending => exact Processor.dispatchBatch_settings depth _ p
  | waited hanswer hwaits => exact hstate hwaits
  | abandoned hanswer hwaits htripped => exact hstate hwaits
  | hung hanswer hwaits => exact hstate hwaits

/-- What a turn engages in, and the wait that it hands on if the loop goes on: it engages in nothing
and the loop stops, or in a batch, or in the wait that was handed to it. -/
inductive Paced (settings : Settings) (backoff : Nat) : List LogRecord → Ending (Option Nat) → Prop
  | stopped {ending : Ending (Option Nat)} (hlast : ∀ next, ending ≠ .returned (some next)) :
      Paced settings backoff [] ending
  | dispatched {ending : Ending (Option Nat)} (count : Nat)
      (hnext : ∀ next, ending = .returned (some next) → next = settings.backoffInitial) :
      Paced settings backoff [.batchReceived count] ending
  | waited {ending : Ending (Option Nat)} (error : String)
      (hnext : ∀ next, ending = .returned (some next) → next = nextBackoff settings backoff) :
      Paced settings backoff [.fetchFailed error backoff] ending

namespace Paced

variable {settings : Settings} {backoff : Nat}

theorem finished : Paced settings backoff [] (.returned none) := .stopped nofun

theorem hung : Paced settings backoff [] .hung := .stopped nofun

end Paced

section Respond

variable {depth : Nat} {favour : Favour} {name : String} {turn backoff : Nat} {p : Processor}

theorem next_of_respond_batch {updates : List Update} {next : Nat}
    (h : (respond depth favour name turn backoff (some (.batch updates)) p).ending =
      .returned (some next)) :
    next = p.settings.backoffInitial := by
  rw [respond, log_bind] at h
  obtain ⟨outcomes, houtcomes, hnext, -⟩ := exists_of_bind_returned h
  have hafter : (engage (Processor.dispatchBatch depth updates) p).after =
      (Processor.dispatchBatch depth updates p).after := by
    cases hend : (Processor.dispatchBatch depth updates p).ending with
    | returned value => rw [engage_of_returned hend]
    | panicked panic => rw [engage_of_not_returned (by simp [hend])]
    | hung => rw [engage_of_not_returned (by simp [hend])]
  have hsettings := Processor.dispatchBatch_settings depth updates p
  rw [hafter, state_bind, pure_apply] at hnext
  simp only [Ending.returned.injEq, Option.some.injEq] at hnext
  rw [← hnext, hsettings]

theorem next_of_respond_failed {cause : Cause} {next : Nat}
    (h : (respond depth favour name turn backoff (some (.failed cause)) p).ending =
      .returned (some next)) :
    next = nextBackoff p.settings backoff := by
  obtain ⟨hwaits, hpanic⟩ := retryWait_idle (favour (turn + 1)) backoff p
  cases hend : (retryWait (favour (turn + 1)) backoff p).ending with
  | returned tripped =>
    cases tripped with
    | false =>
      rw [respond_of_waited hend, hwaits.state] at h
      exact (Option.some.inj (Ending.returned.inj h)).symm
    | true =>
      have hengage : (engage (retryWait (favour (turn + 1)) backoff) p).ending = .returned true :=
        congrArg Run.ending (engage_of_returned hend)
      rw [respond, log_bind, bind_of_returned hengage] at h
      cases h
  | panicked panic => exact absurd hend (hpanic panic)
  | hung =>
    have hengage : (engage (retryWait (favour (turn + 1)) backoff) p).ending = .hung :=
      (congrArg Run.ending (engage_of_not_returned (by simp [hend]))).trans hend
    rw [respond, log_bind, bind_of_hung hengage] at h
    cases h

end Respond

section Run

variable (depth : Nat) (favour : Favour) (name : String)

/-- Each turn engages in one thing at most, and sets the next wait by it. -/
theorem takeTurn_paced (turn backoff : Nat) (fetch : Fetch) (p : Processor) :
    (takeTurn depth favour name turn backoff fetch p).after.settings = p.settings ∧
      Paced p.settings backoff
        (engagements (takeTurn depth favour name turn backoff fetch p).journal)
        (takeTurn depth favour name turn backoff fetch p).ending := by
  have hasked := ask_asked (favour turn) fetch p
  generalize hrun : ask (favour turn) fetch p = run at hasked
  have hending := congrArg Run.ending hrun
  unfold takeTurn
  cases hasked with
  | shut hon =>
    rw [bind_of_returned hending, hrun]
    exact ⟨rfl, .finished⟩
  | @cutOff q journal hoff hwaits =>
    rw [bind_of_returned hending, hrun]
    refine ⟨by rw [respond, pure_apply, hwaits.state], ?_⟩
    simp only [respond, pure_apply, List.append_nil]
    rw [hwaits.engagements (by simp)]
    exact .finished
  | @hung q journal hoff hwaits =>
    rw [bind_of_hung hending, hrun]
    refine ⟨by rw [hwaits.state], ?_⟩
    rw [← List.append_nil (_ :: _), hwaits.engagements (by simp)]
    exact .hung
  | @answered q journal hoff hwaits =>
    have hsettings : q.settings = p.settings := by rw [hwaits.state]
    rw [bind_of_returned hending, hrun]
    dsimp only
    cases hanswer : fetch.answer with
    | ended =>
      refine ⟨hsettings, ?_⟩
      rw [hwaits.engagements (by simp [respond, log_bind])]
      exact .finished
    | batch updates =>
      obtain ⟨run, hengaged, hrespond⟩ :=
        @respond_batch depth favour name turn backoff q updates
      have hnext := @next_of_respond_batch depth favour name turn backoff q updates
      rw [hrespond] at hnext ⊢
      refine ⟨hengaged.settings.trans hsettings, ?_⟩
      rw [hwaits.engagements (by simp), hengaged.engagements, ← hsettings]
      exact .dispatched _ fun _ => hnext
    | failed cause =>
      obtain ⟨run, hengaged, hrespond⟩ :=
        @respond_failed depth favour name turn backoff q cause
      have hnext := @next_of_respond_failed depth favour name turn backoff q cause
      rw [hrespond] at hnext ⊢
      refine ⟨hengaged.settings.trans hsettings, ?_⟩
      rw [hwaits.engagements (by simp), hengaged.engagements, ← hsettings]
      exact .waited _ fun _ => hnext

/-- No run of a loop begins in an engagement. -/
theorem head?_listenFrom_ne_engaged (turn backoff : Nat) (fetches : List Fetch) (p : Processor) :
    (listenFrom depth favour name turn backoff fetches p).journal.head? ≠ some .engaged := by
  obtain ⟨further, hbegins⟩ := takeTurn_begins depth favour name turn backoff fetches p
  have hturned := takeTurn_turned depth favour name turn backoff (nextFetch fetches) p
  generalize takeTurn depth favour name turn backoff (nextFetch fetches) p = run at hturned hbegins
  rw [← hbegins]
  cases hturned with
  | shut hon => simp
  | early hending hoff hwaits => simp
  | engaged hoff hwaits hengaged => simp

end Run

end Listening

end ChatDispatch
