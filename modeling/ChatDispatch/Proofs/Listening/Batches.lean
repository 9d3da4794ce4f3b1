import ChatDispatch.Proofs.Listening.Releases

/-!
Which updates a loop dispatches. A dispatch of a batch takes the updates up in their order, all of
them if it returns. So a loop takes up whole batches, those that it has received from its source;
only a dispatch that does not return leaves a batch unfinished, and then the loop does not return
either.
-/

namespace ChatDispatch

def taken (journal : List Entry) : List Update :=
  journal.filterMap fun entry =>
    match entry with
    | .taken update => some update
    | _ => none

def batchesOf : List Fetch → List (List Update)
  | [] => []
  | fetch :: rest =>
    match fetch.answer with
    | .batch updates => updates :: batchesOf rest
    | .failed _ => batchesOf rest
    | .ended => []

def Source.batches (source : Source) : List (List Update) := batchesOf source.fetches

/-- The batches among the answers of the source that a loop has engaged in. -/
def Source.received (source : Source) (journal : List Entry) : List (List Update) :=
  batchesOf (source.fetches.take (responses journal))

theorem taken_append (first second : List Entry) :
    taken (first ++ second) = taken first ++ taken second :=
  List.filterMap_append

theorem taken_eq_nil {journal : List Entry} (h : ∀ update, .taken update ∉ journal) :
    taken journal = [] := by
  apply List.filterMap_eq_nil_iff.mpr
  intro entry hmem
  cases entry with
  | taken update => exact absurd hmem (h update)
  | _ => rfl

theorem Processor.Waits.taken {p q : Processor} {journal : List Entry} (h : p.Waits journal q) :
    taken journal = [] :=
  taken_eq_nil fun _ hmem => Bool.noConfusion (h.entries _ hmem)

namespace Processor

variable (depth : Nat)

theorem taken_dispatch (message : Message) (p : Processor) :
    taken (dispatch depth message p).journal = [] := by
  refine taken_eq_nil fun update hmem => ?_
  obtain ⟨hkind, _⟩ := isOfDispatch_of_mem_dispatch hmem
  exact Bool.noConfusion hkind

theorem taken_dispatchUpdate (update : Update) (p : Processor) :
    taken (dispatchUpdate depth update p).journal = [update] := by
  unfold dispatchUpdate
  rw [Action.enter_bind]
  cases update.message? with
  | some message => exact congrArg (update :: ·) (taken_dispatch depth message p)
  | none => rfl

/-- A dispatch of a batch takes up the updates in order, up to the one that does not return. -/
theorem taken_dispatchBatch (updates : List Update) (p : Processor) :
    taken (dispatchBatch depth updates p).journal <+: updates ∧
      ∀ outcomes, (dispatchBatch depth updates p).ending = .returned outcomes →
        taken (dispatchBatch depth updates p).journal = updates := by
  induction updates generalizing p with
  | nil => exact ⟨List.prefix_refl [], fun _ _ => rfl⟩
  | cons update rest ih =>
    have hhead := taken_dispatchUpdate depth update p
    rw [dispatchBatch]
    rcases Action.bind_cases (dispatchUpdate depth update) _ p with
      ⟨outcome, _, hrun⟩ | ⟨hnot, _, hjournal⟩
    · obtain ⟨hbegins, hall⟩ := ih (dispatchUpdate depth update p).after
      rw [hrun, Action.bind_pure_apply]
      dsimp only
      rw [taken_append, hhead, List.singleton_append]
      refine ⟨List.prefix_cons_inj update |>.mpr hbegins, fun outcomes h => ?_⟩
      cases hrest : (dispatchBatch depth rest (dispatchUpdate depth update p).after).ending with
      | returned others => rw [hall others hrest]
      | panicked panic => simp [hrest, Ending.map] at h
      | hung => simp [hrest, Ending.map] at h
    · rw [hjournal, hhead]
      exact ⟨List.prefix_append [update] rest, fun outcomes h => absurd h (hnot outcomes)⟩

end Processor

namespace Listening

/-- The beginning of a batch that its dispatch has taken up without ever returning. -/
def BrokenOff (depth : Nat) (batch cut : List Update) : Prop :=
  cut <+: batch ∧
    ∃ q, (∀ outcomes, (Processor.dispatchBatch depth batch q).ending ≠ .returned outcomes) ∧
      cut = taken (Processor.dispatchBatch depth batch q).journal

/-- What a turn takes up. If the loop goes on, that is the whole batch or, after an error, nothing.
If it does not, the turn has taken up nothing, and no batch was received, or it has taken up the
beginning of the batch that broke off. -/
structure TakesUp (depth : Nat) (fetch : Fetch) (run : Run (Option Nat)) : Prop where
  ofSome : ∀ next, run.ending = .returned (some next) →
    fetch.answer = .batch (taken run.journal) ∨
      (∃ cause, fetch.answer = .failed cause) ∧ taken run.journal = []
  ofLast : (∀ next, run.ending ≠ .returned (some next)) →
    (taken run.journal = [] ∧ batchesOf ([fetch].take (responses run.journal)) = []) ∨
      responses run.journal = 1 ∧
        (∃ batch, fetch.answer = .batch batch ∧ BrokenOff depth batch (taken run.journal)) ∧
          ∀ next, run.ending ≠ .returned next

theorem batchesOf_take_of_failed {fetch : Fetch} {cause : Cause} (h : fetch.answer = .failed cause)
    (n : Nat) : batchesOf ([fetch].take n) = [] := by
  cases n with
  | zero => rfl
  | succ n =>
    rw [List.take_succ_cons, List.take_nil, batchesOf, h]
    rfl

theorem Engaged.takesUp {depth : Nat} {fetch : Fetch} {p : Processor} {run : Run (Option Nat)}
    (h : Engaged depth fetch.answer p run) : TakesUp depth fetch run := by
  have hone := h.marks.2
  cases h with
  | @dispatched updates outcomes hanswer hreturned =>
    have htaken := (Processor.taken_dispatchBatch depth updates p).2 outcomes hreturned
    refine ⟨fun _ _ => .inl ?_, fun hlast => absurd rfl (hlast _)⟩
    rw [hanswer, taken_append]
    exact congrArg Answer.batch (htaken.symm.trans (List.append_nil _).symm)
  | @broken updates ending hanswer hbroken hending =>
    refine ⟨fun next hnext => absurd hnext (hending _), fun _ => .inr ⟨hone, ?_, hending⟩⟩
    exact ⟨updates, hanswer, (Processor.taken_dispatchBatch depth updates p).1, p, hbroken, rfl⟩
  | @waited cause next q journal hanswer hwaits =>
    refine ⟨fun _ _ => .inr ⟨⟨cause, hanswer⟩, ?_⟩, fun hlast => absurd rfl (hlast _)⟩
    rw [taken_append]
    exact (List.append_nil _).trans hwaits.taken
  | @abandoned cause q journal hanswer hwaits htripped =>
    refine ⟨nofun, fun _ => .inl ⟨?_, batchesOf_take_of_failed hanswer _⟩⟩
    rw [taken_append]
    exact (List.append_nil _).trans hwaits.taken
  | hung hanswer hwaits =>
    exact ⟨nofun, fun _ => .inl ⟨hwaits.taken, batchesOf_take_of_failed hanswer _⟩⟩

theorem Turned.takesUp {depth : Nat} {fetch : Fetch} {p : Processor} {run : Run (Option Nat)}
    (h : Turned depth fetch p run) : TakesUp depth fetch run := by
  cases h with
  | shut hon => exact ⟨nofun, fun _ => .inl ⟨rfl, rfl⟩⟩
  | @early ending q journal hending hoff hwaits =>
    have hnone : responses ([.asked] ++ journal) = 0 := by
      rw [responses_append, responses_eq_zero hwaits.isMark]
      rfl
    refine ⟨fun next hnext => ?_, fun _ => .inl ⟨hwaits.taken, ?_⟩⟩
    · rcases hending with h | h <;> simp [h] at hnext
    · change batchesOf ([fetch].take (responses ([.asked] ++ journal))) = []
      rw [hnone]
      rfl
  | @engaged q journal run hoff hwaits hengaged =>
    obtain ⟨hsome, hlast⟩ := hengaged.takesUp
    have htaken : taken (.asked :: journal ++ run.journal) = taken run.journal := by
      rw [taken_append]
      exact congrArg (· ++ _) hwaits.taken
    have hresponses : responses ([.asked] ++ journal ++ run.journal) = responses run.journal := by
      rw [responses_append, responses_append, responses_eq_zero hwaits.isMark]
      exact Nat.zero_add _
    rw [← htaken] at hsome hlast
    rw [← hresponses] at hlast
    exact ⟨hsome, hlast⟩

theorem getElem?_batchesOf {fetches : List Fetch} {batch : List Update}
    (h : (nextFetch fetches).answer = .batch batch) : (batchesOf fetches)[0]? = some batch := by
  cases fetches with
  | nil => cases h
  | cons fetch rest =>
    unfold batchesOf
    rw [show fetch.answer = .batch batch from h]
    rfl

/-- What the last turn of a run takes up. -/
theorem TakesUp.ofAsLast {depth : Nat} {fetches : List Fetch} {run : Run (Option Nat)}
    (h : TakesUp depth (nextFetch fetches) run)
    (hlast : ∀ next, run.ending ≠ .returned (some next)) (hone : responses run.journal ≤ 1) :
    (taken run.journal = [] ∧ batchesOf (fetches.take (responses run.journal)) = []) ∨
      (batchesOf (fetches.take (responses run.journal))).length = 1 ∧
        (∃ batch, (batchesOf fetches)[0]? = some batch ∧
          BrokenOff depth batch (taken run.journal)) ∧
          ∀ value, run.asLast.ending ≠ .returned value := by
  have htake : batchesOf (fetches.take (responses run.journal)) =
      batchesOf ([nextFetch fetches].take (responses run.journal)) := by
    cases fetches with
    | nil => rcases Nat.le_one_iff_eq_zero_or_eq_one.mp hone with h | h <;> rw [h] <;> rfl
    | cons fetch rest =>
      rcases Nat.le_one_iff_eq_zero_or_eq_one.mp hone with h | h <;> rw [h] <;> rfl
  rw [htake]
  rcases h.ofLast hlast with hnone | ⟨hresponse, ⟨batch, hbatch, hbroken⟩, hnot⟩
  · exact .inl hnone
  · refine .inr ⟨?_, ⟨batch, getElem?_batchesOf hbatch, hbroken⟩, fun value hvalue => ?_⟩
    · rw [hresponse, List.take_succ_cons, batchesOf, hbatch]
      rfl
    · unfold Run.asLast at hvalue
      cases hend : run.ending with
      | returned next => exact hnot next hend
      | panicked panic => simp [hend, Ending.map] at hvalue
      | hung => simp [hend, Ending.map] at hvalue

/-- A run with these fetches ahead of it takes up the batches that it receives; of the last of them
it takes up what was taken up before its dispatch broke off, and the run with it. -/
def TakesReceived (depth : Nat) (fetches : List Fetch) (run : Run Unit) : Prop :=
  ∃ k cut, taken run.journal = ((batchesOf fetches).take k).flatten ++ cut ∧
    (k = (batchesOf (fetches.take (responses run.journal))).length ∧ cut = [] ∨
      k + 1 = (batchesOf (fetches.take (responses run.journal))).length ∧
      (∃ batch, (batchesOf fetches)[k]? = some batch ∧ BrokenOff depth batch cut) ∧
        ∀ value, run.ending ≠ .returned value)

theorem listenFrom_takesReceived (depth : Nat) (favour : Favour) (name : String)
    (turn backoff : Nat) (fetches : List Fetch) (p : Processor) :
    TakesReceived depth fetches (listenFrom depth favour name turn backoff fetches p) := by
  refine listenFrom_induction (motive := fun _ _ fetches _ run => TakesReceived depth fetches run)
    ?_ ?_ turn backoff fetches p
  · intro turn backoff fetches p hlast
    have hturned := takeTurn_turned depth favour name turn backoff (nextFetch fetches) p
    refine ⟨0, _, rfl, ?_⟩
    rcases hturned.takesUp.ofAsLast hlast hturned.responses_le with ⟨hnone, hreceived⟩ | hbroken
    · exact .inl ⟨(congrArg List.length hreceived).symm, hnone⟩
    · exact .inr ⟨hbroken.1.symm, hbroken.2⟩
  · intro turn backoff fetch rest p next hnext ih
    have hturned := takeTurn_turned depth favour name turn backoff fetch p
    obtain ⟨k, cut, htaken, hcut⟩ := ih
    unfold TakesReceived Run.andThen
    dsimp only
    rw [taken_append, htaken, responses_append, hturned.responses_of_some hnext, Nat.add_comm 1,
      List.take_succ_cons]
    rcases hturned.takesUp.ofSome next hnext with hbatch | ⟨⟨cause, hfailed⟩, hnone⟩
    · have hbatches : ∀ more : List Fetch, batchesOf (fetch :: more) =
          taken (takeTurn depth favour name turn backoff fetch p).journal :: batchesOf more := by
        intro more
        rw [batchesOf, hbatch]
      refine ⟨k + 1, cut, ?_, ?_⟩
      · rw [hbatches, List.take_succ_cons, List.flatten_cons, List.append_assoc]
      · rw [hbatches, hbatches, List.length_cons, List.getElem?_cons_succ]
        simpa only [Nat.add_right_cancel_iff] using hcut
    · have hbatches : ∀ more : List Fetch, batchesOf (fetch :: more) = batchesOf more := by
        intro more
        rw [batchesOf, hfailed]
      refine ⟨k, cut, ?_, ?_⟩
      · rw [hbatches, hnone, List.nil_append]
      · rw [hbatches, hbatches]
        exact hcut

/-- A loop asks again only when it has engaged in all answers so far. -/
theorem asks_listenFrom (depth : Nat) (favour : Favour) (name : String) (turn backoff : Nat)
    (fetches : List Fetch) (p : Processor) :
    asks (listenFrom depth favour name turn backoff fetches p).journal ≤
      responses (listenFrom depth favour name turn backoff fetches p).journal + 1 := by
  refine listenFrom_induction (motive := fun _ _ _ _ run =>
    asks run.journal ≤ responses run.journal + 1) ?_ ?_ turn backoff fetches p
  · intro turn backoff fetches p hlast
    have hturned := takeTurn_turned depth favour name turn backoff (nextFetch fetches) p
    exact Nat.le_trans hturned.marks.1 (Nat.le_add_left 1 _)
  · intro turn backoff fetch rest p next hnext ih
    have hturned := takeTurn_turned depth favour name turn backoff fetch p
    have hasks := hturned.marks.1
    have hresponses := hturned.responses_of_some hnext
    unfold Run.andThen
    dsimp only
    rw [asks_append, responses_append]
    omega

/-- A run of the loop takes up whole batches: those that it has received from its source, which are
the first ones that the source yields, in order. It has engaged in all answers of the source, apart
from a last question that may have come to nothing. Only a run that does not return can have left a
batch unfinished, the last that it has received, and the dispatch of that has broken off. Where the
switch is on when the loop is released from a dispatch or a wait, the loop returns, and neither asks
the source again nor takes up anything. -/
theorem listen_takes_whole_batches (depth : Nat) (favour : Favour) (start : Start)
    (source : Source) (p : Processor) :
    (∃ k cut, taken (listen depth favour start source p).journal =
        (source.batches.take k).flatten ++ cut ∧
      (k = (source.received (listen depth favour start source p).journal).length ∧ cut = [] ∨
        k + 1 = (source.received (listen depth favour start source p).journal).length ∧
        (∃ batch, source.batches[k]? = some batch ∧ BrokenOff depth batch cut) ∧
          ∀ value, (listen depth favour start source p).ending ≠ .returned value)) ∧
    asks (listen depth favour start source p).journal ≤
      responses (listen depth favour start source p).journal + 1 ∧
    ∀ pre switch post,
      (listen depth favour start source p).journal = pre ++ .released switch :: post →
      switch.isOn = true →
        (listen depth favour start source p).ending = .returned () ∧
          .asked ∉ post ∧ taken post = [] := by
  refine ⟨?_, ?_, fun pre switch post hrun hon => ?_⟩
  · rw [listen_apply]
    exact listenFrom_takesReceived depth favour source.name 0 p.settings.backoffInitial source.fetches
      (started start p)
  · rw [listen_apply]
    exact asks_listenFrom depth favour source.name 0 p.settings.backoffInitial source.fetches
      (started start p)
  · obtain ⟨hend, record, rfl⟩ := listen_of_isOn hrun hon
    exact ⟨hend, by simp, rfl⟩

def haltingModule : Module Program where
  owner := "Alpha"
  methods := [
    { name := "halt"
      command := some "halt"
      parameters := [.message, .client]
      body := fun _ => .signal .stop (.sleep 10 .done) },
    { name := "ping"
      command := some "ping"
      parameters := [.message, .client]
      body := fun _ => .done }]

/-- A batch whose first command stops the loop. -/
def haltingBatch : List Update :=
  [.ofMessage 0 { text := some "/halt" }, .ofMessage 0 { text := some "/ping" }]

def haltingSource : Source := .queue [haltingBatch, haltingBatch]

def haltedRun : Run Unit :=
  listen 1 (fun _ => true) {} haltingSource (Processor.serving haltingModule)

theorem haltedRun_journal : haltedRun.ending = .returned () ∧ responses haltedRun.journal = 1 ∧
    ∃ pre post, haltedRun.journal = pre ++ .released ⟨true, false⟩ :: post := by
  have hclock : Start.clock {} 0 = ⟨0, none, [], ⟨false, false⟩⟩ := by simp [Start.clock]
  have hstarted : started {} (Processor.serving haltingModule) =
      { Processor.serving haltingModule with clock := ⟨0, none, [], ⟨false, false⟩⟩ } :=
    congrArg (fun clock => { Processor.serving haltingModule with clock }) hclock
  unfold haltedRun
  rw [listen_apply, hstarted]
  exact ⟨rfl, rfl, List.append_of_mem (List.mem_of_getElem? (i := 21) rfl)⟩

/-- The batch whose command stops the loop is taken up whole, and the other one is not asked for. -/
theorem haltedRun_takes_one_batch :
    taken haltedRun.journal = haltingBatch ∧ ∃ pre post,
      haltedRun.journal = pre ++ .released ⟨true, false⟩ :: post ∧ .asked ∉ post := by
  obtain ⟨hreturned, hresponses, pre, post, hrun⟩ := haltedRun_journal
  obtain ⟨⟨k, cut, htaken, hcut⟩, _, hstop⟩ := listen_takes_whole_batches 1 (fun _ => true) {}
    haltingSource (Processor.serving haltingModule)
  refine ⟨?_, pre, post, hrun, (hstop pre _ post hrun rfl).2.1⟩
  rcases hcut with ⟨hk, rfl⟩ | ⟨_, _, hnot⟩
  · have hone : (haltingSource.received haltedRun.journal).length = 1 := by
      rw [Source.received, hresponses]
      rfl
    rw [hk.trans hone] at htaken
    exact htaken
  · exact absurd hreturned (hnot ())

end Listening

end ChatDispatch
