import ChatDispatch.Proofs.Dispatch.Sequence
import ChatDispatch.Proofs.Listening.Batches
import ChatDispatch.Proofs.Listening.Calm

/-!
A loop that nobody stops. It ends with its source, and what it has done then is what dispatching the
messages of its batches one after the other does. Errors, empty batches, pauses and the places where
batches are cut leave no trace in that.
-/

namespace ChatDispatch

def messagesOf (batches : List (List Update)) : List Message :=
  batches.flatten.filterMap Update.message?

theorem messagesOf_cons (updates : List Update) (batches : List (List Update)) :
    messagesOf (updates :: batches) = updates.filterMap Update.message? ++ messagesOf batches :=
  List.filterMap_append

/-- The other run leaves the same state, the clock apart, and has taken the same steps. -/
structure Run.SameWork {α β : Type} (run : Run α) (other : Run β) : Prop where
  after : other.after = { run.after with clock := other.after.clock }
  steps : ChatDispatch.steps other.journal = ChatDispatch.steps run.journal

namespace Run.SameWork

variable {α β γ : Type} {run : Run α} {other : Run β} {third : Run γ}

theorem symm (h : run.SameWork other) : other.SameWork run where
  after := by rw [h.after]
  steps := h.steps.symm

theorem trans (h : run.SameWork other) (h' : other.SameWork third) : run.SameWork third where
  after := by rw [h'.after, h.after]
  steps := h'.steps.trans h.steps

end Run.SameWork

namespace Listening

open ChatDispatch.Action ChatDispatch.Processor

/-- Of what a turn enters around its engagement nothing is a step. -/
theorem steps_engaged {journal engaged : List Entry} {record : LogRecord}
    (hjournal : steps journal = []) (hrecord : record.isOfDispatch = false) (switch : Switch) :
    steps (.asked :: journal ++ .logged record :: (.engaged :: engaged ++ [.released switch])) =
      steps engaged := by
  have hasked : steps (.asked :: journal) = [] := hjournal
  have hrecords : steps [.logged record] = [] :=
    steps_eq_nil (List.forall_mem_singleton.mpr hrecord)
  have hmarked : steps (.engaged :: engaged ++ [.released switch]) =
      steps (engaged ++ [.released switch]) := rfl
  rw [List.append_cons, steps_append, steps_append, hasked, hrecords, hmarked, steps_append]
  exact List.append_nil _

section Turn

variable (depth : Nat) {favour : Favour} (name : String) {turn : Nat} (backoff : Nat)
  {p q : Processor} {journal : List Entry}

theorem takeTurn_of_asked {fetch : Fetch} {answer : Option Answer}
    (h : ask (favour turn) fetch p = ⟨.returned answer, q, journal⟩) :
    takeTurn depth favour name turn backoff fetch p =
      ⟨(respond depth favour name turn backoff answer q).ending,
        (respond depth favour name turn backoff answer q).after,
        journal ++ (respond depth favour name turn backoff answer q).journal⟩ := by
  unfold takeTurn
  rw [bind_of_returned (congrArg Run.ending h), h]

/-- A loop whose source has ended returns. -/
theorem listenFrom_of_ended {fetches : List Fetch} (hended : (nextFetch fetches).answer = .ended)
    (hquiet : (nextFetch fetches).IsQuiet) (hcalm : p.clock.Calm) :
    (listenFrom depth favour name turn backoff fetches p).ending = .returned () ∧
      (listenFrom depth favour name turn backoff fetches p).after =
        { p with
          clock := (listenFrom depth favour name turn backoff fetches p).after.clock } ∧
      steps (listenFrom depth favour name turn backoff fetches p).journal = [] := by
  obtain ⟨q, journal, hask, hwaits, _, hsteps⟩ := ask_of_calm (favour turn) hquiet hcalm
  rw [hended] at hask
  have hturn : takeTurn depth favour name turn backoff (nextFetch fetches) p =
      ⟨.returned none, q, .asked :: journal ++ [.logged (.sourceClosed name)]⟩ :=
    takeTurn_of_asked depth name backoff hask
  rw [listenFrom_of_last (by simp [hturn]), hturn]
  refine ⟨rfl, hwaits.state, ?_⟩
  change steps (.asked :: journal ++ [.logged (.sourceClosed name)]) = []
  rw [steps_append]
  exact (List.append_nil _).trans hsteps

/-- A turn that meets an error at a calm clock waits, and the loop goes on. -/
theorem takeTurn_of_failed {fetch : Fetch} {cause : Cause}
    (hask : ask (favour turn) fetch p = ⟨.returned (some (.failed cause)), q, .asked :: journal⟩)
    (hq : q.clock.Calm) (hsteps : steps journal = []) :
    ∃ next r entries, takeTurn depth favour name turn backoff fetch p =
        ⟨.returned (some next), r, entries⟩ ∧
      r = { q with clock := r.clock } ∧ r.clock.Calm ∧ steps entries = [] := by
  have hwait := retryWait_undisturbed (favour (turn + 1)) backoff hq
  have hturn := takeTurn_of_asked depth name backoff hask
  rw [respond_of_waited hwait.ending] at hturn
  exact ⟨_, _, _, hturn, hwait.waits.state, hwait.calm,
    (steps_engaged hsteps rfl _).trans hwait.steps⟩

/-- A turn that receives a batch dispatches it, and the loop goes on. -/
theorem takeTurn_of_batch {fetch : Fetch} {updates : List Update} {results : List Outcome}
    (hask : ask (favour turn) fetch p = ⟨.returned (some (.batch updates)), q, .asked :: journal⟩)
    (hresults : (dispatchBatch depth updates q).ending = .returned results)
    (hsteps : steps journal = []) :
    ∃ next entries, takeTurn depth favour name turn backoff fetch p =
        ⟨.returned (some next), (dispatchBatch depth updates q).after, entries⟩ ∧
      steps entries = steps (dispatchBatch depth updates q).journal := by
  have hturn := takeTurn_of_asked depth name backoff hask
  rw [respond_of_dispatched hresults] at hturn
  exact ⟨_, _, hturn, steps_engaged hsteps rfl _⟩

end Turn

/-- A loop over quiet fetches does the work of dispatching their messages one after the other. -/
theorem listenFrom_sameWork (depth : Nat) (favour : Favour) (name : String) (turn backoff : Nat)
    {fetches : List Fetch} (hquiet : ∀ fetch ∈ fetches, fetch.IsQuiet) (p : Processor)
    {clock : Clock} (hcalm : clock.Calm) {outcomes : List Outcome}
    (h : ((messagesOf (batchesOf fetches)).mapM (dispatch depth) p).ending = .returned outcomes)
    (hsent : ∀ sent,
      .signalled sent ∈ ((messagesOf (batchesOf fetches)).mapM (dispatch depth) p).journal →
        sent = .carryOn) :
    (listenFrom depth favour name turn backoff fetches { p with clock }).ending = .returned () ∧
      ((messagesOf (batchesOf fetches)).mapM (dispatch depth) p).SameWork
        (listenFrom depth favour name turn backoff fetches { p with clock }) := by
  induction fetches generalizing turn backoff p clock outcomes with
  | nil =>
    obtain ⟨hreturned, hafter, hsteps⟩ := @listenFrom_of_ended depth favour name turn backoff
      { p with clock } [] rfl nofun hcalm
    exact ⟨hreturned, hafter, hsteps⟩
  | cons fetch rest ih =>
    obtain ⟨hfetch, hrest⟩ := List.forall_mem_cons.mp hquiet
    obtain ⟨q, journal, hask, hwaits, hq, hsteps⟩ :=
      ask_of_calm (favour turn) hfetch (p := { p with clock }) hcalm
    cases hanswer : fetch.answer with
    | ended =>
      have hbatches : batchesOf (fetch :: rest) = [] := by rw [batchesOf, hanswer]
      obtain ⟨hreturned, hafter, hsteps⟩ := @listenFrom_of_ended depth favour name turn backoff
        { p with clock } (fetch :: rest) hanswer hfetch hcalm
      rw [hbatches]
      exact ⟨hreturned, hafter, hsteps⟩
    | failed cause =>
      have hbatches : batchesOf (fetch :: rest) = batchesOf rest := by rw [batchesOf, hanswer]
      rw [hbatches] at h hsent ⊢
      rw [hanswer] at hask
      obtain ⟨next, r, entries, hturn, hafter, hr, hentries⟩ :=
        takeTurn_of_failed depth name backoff hask hq hsteps
      rw [hwaits.state] at hafter
      have hmore := ih (turn + 2) next hrest p hr h hsent
      rw [← hafter] at hmore
      rw [listenFrom_of_some (congrArg Run.ending hturn), hturn]
      refine ⟨hmore.1, hmore.2.after, ?_⟩
      change steps (entries ++ _) = steps _
      rw [steps_append, hentries, hmore.2.steps, List.nil_append]
    | batch updates =>
      have hbatches : batchesOf (fetch :: rest) = updates :: batchesOf rest := by
        rw [batchesOf, hanswer]
      -- The reference is cut behind the messages of this batch; the rest is up to the induction.
      rw [hbatches, messagesOf_cons, List.mapM_append] at h hsent ⊢
      rw [hanswer] at hask
      obtain ⟨first, hfirst, hothers, hrun⟩ := exists_of_bind_returned h
      obtain ⟨second, hsecond, _, _⟩ := exists_of_bind_returned hothers
      rw [bind_of_returned hfirst, bind_pure_apply] at hsent ⊢
      obtain ⟨⟨results, hresults⟩, hafter, hdeadline, hacts⟩ :=
        dispatchBatch_replays updates p q.clock hq.deadline hfirst
      rw [← hwaits.state] at hresults hafter hdeadline hacts
      have hsentFirst : ∀ sent, .signalled sent ∈ (dispatchBatch depth updates q).journal →
          sent = .carryOn := by
        intro sent hmem
        rw [← signalled_mem_acts, hacts, signalled_mem_acts] at hmem
        exact hsent sent (List.mem_append_left _ hmem)
      have hcalmAfter := hq.follows (dispatchBatch_tracks depth updates q) hsentFirst
      obtain ⟨next, entries, hturn, hentries⟩ :=
        takeTurn_of_batch depth name backoff hask hresults hsteps
      have hmore := ih (turn + 2) next hrest _ hcalmAfter hsecond
        fun sent hmem => hsent sent (List.mem_append_right _ hmem)
      rw [← hafter] at hmore
      rw [listenFrom_of_some (congrArg Run.ending hturn), hturn]
      refine ⟨hmore.1, hmore.2.after, ?_⟩
      change steps (entries ++ _) = steps (_ ++ _)
      rw [steps_append, steps_append, hentries, hmore.2.steps, ← steps_acts, hacts, steps_acts]

theorem listen_sameWork (depth : Nat) (favour : Favour) {start : Start} {source : Source}
    {p : Processor} {outcomes : List Outcome} (hstart : start.IsQuiet) (hsource : source.IsQuiet)
    (h : ((messagesOf source.batches).mapM (dispatch depth) p).ending = .returned outcomes)
    (hsent : ∀ sent,
      .signalled sent ∈ ((messagesOf source.batches).mapM (dispatch depth) p).journal →
        sent = .carryOn) :
    (listen depth favour start source p).ending = .returned () ∧
      ((messagesOf source.batches).mapM (dispatch depth) p).SameWork
        (listen depth favour start source p) := by
  obtain ⟨hreturned, hafter, hsteps⟩ := listenFrom_sameWork depth favour source.name 0
    p.settings.backoffInitial hsource p (hstart.calm p.clock.now) h hsent
  rw [listen_apply]
  exact ⟨hreturned, hafter, hsteps⟩

/-- A loop that nobody stops returns, and has done the work of dispatching the messages of its
source one after the other, whatever errors, pauses and signals to carry on there were. How the
source cuts its updates into batches makes no difference: two batches in one are dispatched like the
one behind the other, with one outcome for each update. -/
theorem listen_replays (depth : Nat) (favour : Favour) {start : Start} {source : Source}
    {p : Processor} {outcomes : List Outcome} (hstart : start.IsQuiet) (hsource : source.IsQuiet)
    (h : ((messagesOf source.batches).mapM (dispatch depth) p).ending = .returned outcomes)
    (hsent : ∀ sent,
      .signalled sent ∈ ((messagesOf source.batches).mapM (dispatch depth) p).journal →
        sent = .carryOn) :
    ((listen depth favour start source p).ending = .returned () ∧
      ((messagesOf source.batches).mapM (dispatch depth) p).SameWork
        (listen depth favour start source p)) ∧
    (∀ (favour' : Favour) (start' : Start) (source' : Source), start'.IsQuiet → source'.IsQuiet →
      source'.batches.flatten = source.batches.flatten →
        (listen depth favour' start' source' p).ending = .returned () ∧
          (listen depth favour start source p).SameWork
            (listen depth favour' start' source' p)) ∧
    (∀ first second, dispatchBatch depth (first ++ second) = (do
      let outcomes ← dispatchBatch depth first
      let others ← dispatchBatch depth second
      return outcomes ++ others)) ∧
    ∀ updates q results, (dispatchBatch depth updates q).ending = .returned results →
      results.length = updates.length := by
  have hwork := listen_sameWork depth favour hstart hsource h hsent
  refine ⟨hwork, ?_, dispatchBatch_append, fun updates q results => length_of_dispatchBatch⟩
  intro favour' start' source' hstart' hsource' hcut
  have hmessages : messagesOf source'.batches = messagesOf source.batches :=
    congrArg (List.filterMap Update.message?) hcut
  rw [← hmessages] at h hsent hwork
  obtain ⟨hreturned, hwork'⟩ := listen_sameWork depth favour' hstart' hsource' h hsent
  exact ⟨hreturned, hwork.2.symm.trans hwork'⟩

def greetingModule : Module Program where
  owner := "Greeter"
  methods := [{
    name := "greet"
    command := some "greet"
    parameters := [.message, .client]
    body := fun _ => .signal .carryOn (.note (.text "hello") .done) }]

def interruptedGreetings : Source where
  name := "script"
  fetches := [
    { answer := .failed ⟨"connection lost", []⟩ },
    { pauses := [.signal .carryOn]
      answer := .batch [.ofMessage 0 { text := some "/greet" }, ⟨"message_edit", 0, none⟩] },
    { pauses := [.wait 20], answer := .batch [] },
    { answer := .batch [.ofMessage 0 { text := some "/greet" }] }]

/-- The greetings are dispatched like two messages, one after the other. -/
theorem sameWork_of_interruptedGreetings :
    ((messagesOf interruptedGreetings.batches).mapM (dispatch 1) (serving greetingModule)).SameWork
      (listen 1 (fun _ => true) { timers := [⟨5, .carryOn⟩] } interruptedGreetings
        (serving greetingModule)) := by
  have hsource : interruptedGreetings.IsQuiet := by
    intro fetch hfetch pause hpause
    simp only [interruptedGreetings, List.mem_cons, List.not_mem_nil, or_false] at hfetch
    rcases hfetch with rfl | rfl | rfl | rfl <;> simp at hpause <;> subst hpause <;> trivial
  have hstart : Start.IsQuiet { timers := [⟨5, .carryOn⟩] } :=
    ⟨rfl, List.forall_mem_singleton.mpr rfl, rfl⟩
  have harrivals : arrivals ((messagesOf interruptedGreetings.batches).mapM (dispatch 1)
      (serving greetingModule)).journal = [.carryOn, .carryOn] := by rfl
  have hreturned : ((messagesOf interruptedGreetings.batches).mapM (dispatch 1)
      (serving greetingModule)).ending =
        .returned [.executed "greet", .executed "greet"] := by rfl
  refine (listen_replays 1 (fun _ => true) hstart hsource hreturned ?_).1.2
  intro sent hmem
  have hsent : sent ∈ arrivals ((messagesOf interruptedGreetings.batches).mapM (dispatch 1)
      (serving greetingModule)).journal := List.mem_filterMap.mpr ⟨_, hmem, rfl⟩
  rw [harrivals] at hsent
  simpa using hsent

end Listening

end ChatDispatch
