import ChatDispatch.Proofs.Listening.Batches

/-!
When a signal that arrives during a dispatch or a wait stops the loop. What counts is the switch as
the loop finds it in the end: a stop that is the last signal stops the loop, one that is followed by
a signal to carry on is lost. A switch that nobody can turn any more stops the loop as soon as the
source lets it wait; an answer that is there at once may come first.
-/

namespace ChatDispatch.Listening

open ChatDispatch.Action

section Closed

variable {p : Processor}

/-- With a closed switch the pauses of a fetch are over at once: the first that takes time is cut
off. -/
theorem passPauses_ending_of_isClosed (hclosed : p.clock.switch.isClosed = true) (answer : Answer)
    (pauses : List Pause) :
    (passPauses pauses p).ending = .returned (!Fetch.isImmediate { pauses, answer }) := by
  have htripped := Switch.isTripped_of_isClosed hclosed
  induction pauses using passPauses.induct generalizing p with
  | case1 => rfl
  | case2 sent pauses ih =>
    have hsame : (Processor.signal sent p).after = p := by
      change { p with clock := { p.clock with switch := p.clock.switch.send sent } } = p
      rw [Switch.send_of_isClosed hclosed]
    have hsignal : (Processor.signal sent p).ending = .returned () := rfl
    rw [passPauses, bind_of_returned hsignal, hsame]
    exact ih hclosed htripped
  | case3 record pauses ih =>
    rw [passPauses, log_bind]
    exact ih hclosed htripped
  | case4 pauses ih => exact ih hclosed htripped
  | case5 milliseconds pauses hpos ih =>
    have hwatch := watch_of_isTripped htripped (Clock.wait true milliseconds)
    have hslow : Fetch.isImmediate { pauses := .wait milliseconds :: pauses, answer } = false := by
      simp [Fetch.isImmediate, Nat.ne_of_gt (Nat.pos_of_ne_zero hpos)]
    rw [passPauses, bind_of_returned (congrArg Run.ending hwatch), hslow]
    · rfl
    · exact hpos
  | case6 pauses =>
    rw [passPauses, watch_of_isTripped htripped]
    rfl

/-- With a closed switch only an answer that is there at once, and wins, is an answer. -/
theorem ask_ending_of_isClosed (favoured : Bool) (fetch : Fetch)
    (hoff : p.clock.switch.isOn = false) (hclosed : p.clock.switch.isClosed = true) :
    (ask favoured fetch p).ending =
      .returned (if fetch.isImmediate && favoured then some fetch.answer else none) := by
  have htripped := Switch.isTripped_of_isClosed hclosed
  have hpauses : (passPauses fetch.pauses p).ending = .returned (!fetch.isImmediate) :=
    passPauses_ending_of_isClosed hclosed fetch.answer fetch.pauses
  have hanswer : (answerOf favoured fetch p).ending =
      .returned (if fetch.isImmediate && favoured then some fetch.answer else none) := by
    rw [answerOf_apply, htripped]
    cases himmediate : fetch.isImmediate with
    | false =>
      rw [himmediate] at hpauses
      simp [bind_of_returned hpauses]
    | true =>
      rw [himmediate] at hpauses
      cases favoured with
      | false => rfl
      | true => simp [bind_of_returned hpauses]
  rw [ask_of_isOff hoff, enter_bind, bind_of_returned hanswer]
  cases hreply : (if fetch.isImmediate && favoured then some fetch.answer else none) with
  | none => rfl
  | some answer => rfl

end Closed

/-- The loop returns, and behind some point of its journal it engages in nothing any more. -/
structure Stops (run : Run Unit) (post : List Entry) : Prop where
  returned : run.ending = .returned ()
  engaged : .engaged ∉ post
  taken : taken post = []

/-- The source has something for the question with this number, it is there at once, and it wins
over a tripped switch. -/
def Overtakes (favour : Favour) (source : Source) (question : Nat) : Prop :=
  (nextFetch (source.fetches.drop question)).answer ≠ .ended ∧
    (nextFetch (source.fetches.drop question)).isImmediate = true ∧ favour (2 * question) = true

section Loop

variable {depth : Nat} {favour : Favour} {name : String} {turn backoff : Nat}
  {fetches : List Fetch} {p : Processor}

theorem not_engaged_mem_ask (favoured : Bool) (fetch : Fetch) (p : Processor) :
    .engaged ∉ (ask favoured fetch p).journal ∧ taken (ask favoured fetch p).journal = [] := by
  have hwait : ∀ {q r : Processor} {journal : List Entry}, q.Waits journal r →
      .engaged ∉ Entry.asked :: journal := by
    intro q r journal hwaits hmem
    rcases List.mem_cons.mp hmem with h | h
    · cases h
    · exact Bool.noConfusion (hwaits.isMark _ h)
  have hasked := ask_asked favoured fetch p
  generalize ask favoured fetch p = run at hasked
  cases hasked with
  | shut hon => exact ⟨by simp, rfl⟩
  | cutOff hoff hwaits => exact ⟨hwait (hwaits.log .cancelled), (hwaits.log .cancelled).taken⟩
  | answered hoff hwaits => exact ⟨hwait hwaits, hwaits.taken⟩
  | hung hoff hwaits => exact ⟨hwait hwaits, hwaits.taken⟩

/-- A fetch that is cut off, or finds the source ended, is the end of the loop. -/
theorem stops_of_ask {answer : Option Answer}
    (h : (ask (favour turn) (nextFetch fetches) p).ending = .returned answer)
    (hanswer : answer = none ∨ answer = some .ended) :
    Stops (listenFrom depth favour name turn backoff fetches p)
      (listenFrom depth favour name turn backoff fetches p).journal := by
  obtain ⟨hengaged, htaken⟩ := not_engaged_mem_ask (favour turn) (nextFetch fetches) p
  have hturn : ∃ records : List LogRecord,
      takeTurn depth favour name turn backoff (nextFetch fetches) p =
        ⟨.returned none, (ask (favour turn) (nextFetch fetches) p).after,
          (ask (favour turn) (nextFetch fetches) p).journal ++ records.map .logged⟩ := by
    unfold takeTurn
    rw [bind_of_returned h]
    rcases hanswer with rfl | rfl
    · exact ⟨[], rfl⟩
    · exact ⟨[.sourceClosed name], rfl⟩
  obtain ⟨records, hturn⟩ := hturn
  rw [listenFrom_of_last (by simp [hturn]), hturn]
  refine ⟨rfl, ?_, ?_⟩
  · simpa [Run.asLast] using hengaged
  · change taken (_ ++ _) = []
    rw [taken_append, htaken, List.nil_append]
    exact taken_eq_nil (by simp)

/-- Any other answer the loop engages in. -/
theorem engaged_mem_of_ask {answer : Answer}
    (h : (ask (favour turn) (nextFetch fetches) p).ending = .returned (some answer))
    (hanswer : answer ≠ .ended) :
    .engaged ∈ (listenFrom depth favour name turn backoff fetches p).journal := by
  have hengaged : ∀ {answer q run}, Engaged depth answer q run → .engaged ∈ run.journal := by
    intro answer q run hrun
    cases hrun <;> exact List.mem_cons_self
  apply (takeTurn_begins depth favour name turn backoff fetches p).subset
  unfold takeTurn
  rw [bind_of_returned h]
  apply List.mem_append_right
  cases answer with
  | ended => exact absurd rfl hanswer
  | batch updates =>
    obtain ⟨run, hrun, hrespond⟩ := respond_batch depth updates
    rw [hrespond]
    exact List.mem_cons_of_mem _ (hengaged hrun)
  | failed cause =>
    obtain ⟨run, hrun, hrespond⟩ := respond_failed depth cause
    rw [hrespond]
    exact List.mem_cons_of_mem _ (hengaged hrun)

/-- A loop whose switch is off asks. -/
theorem head?_listenFrom (hoff : p.clock.switch.isOn = false) :
    (listenFrom depth favour name turn backoff fetches p).journal.head? = some .asked := by
  obtain ⟨further, hbegins⟩ := takeTurn_begins depth favour name turn backoff fetches p
  have hturned := takeTurn_turned depth favour name turn backoff (nextFetch fetches) p
  generalize takeTurn depth favour name turn backoff (nextFetch fetches) p = run at hturned hbegins
  rw [← hbegins]
  cases hturned with
  | shut hon => simp [hon] at hoff
  | early _ _ _ => rfl
  | engaged _ _ _ => rfl

end Loop

section Released

variable {depth : Nat} {favour : Favour} {start : Start} {source : Source} {p : Processor}
  {pre post : List Entry} {switch : Switch}

theorem isOn_eq_false_of_released
    (h : (listen depth favour start source p).journal = pre ++ .released switch :: post) :
    start.isOn = false := by
  cases hon : start.isOn with
  | false => rfl
  | true =>
    have hstarted : (started start p).clock.switch.isOn = true := hon
    rw [listen_apply, listenFrom_of_isOn hstarted] at h
    have hmem : Entry.released switch ∈ pre ++ .released switch :: post := by simp
    rw [← h] at hmem
    simp at hmem

/-- The switch that the loop is released with is on if the last signal says stop, and closed if one
said that no more will come. -/
theorem released_eq
    (h : (listen depth favour start source p).journal = pre ++ .released switch :: post) :
    switch = ⟨decide (lastSignal? (arrivals pre) = some .stop),
      decide (.hangUp ∈ arrivals pre)⟩ := by
  obtain ⟨q, rfl, hclock, _⟩ := listen_released h
  have hstart : (start.clock p.clock.now).switch = ⟨false, false⟩ := by
    rw [Start.clock, isOn_eq_false_of_released h]
  rw [hclock.switch, hstart, Switch.sendAll_open]
  cases lastSignal? (arrivals pre) with
  | none => rfl
  | some signal => simp

theorem stops_of_isOn
    (h : (listen depth favour start source p).journal = pre ++ .released switch :: post)
    (hon : switch.isOn = true) :
    Stops (listen depth favour start source p) post ∧ .asked ∉ post := by
  obtain ⟨hend, record, rfl⟩ := listen_of_isOn h hon
  exact ⟨⟨hend, by simp, rfl⟩, by simp⟩

/-- With an open switch that is off, the loop asks again. -/
theorem head?_of_isOff
    (h : (listen depth favour start source p).journal = pre ++ .released switch :: post)
    (hoff : switch.isOn = false) (hopen : switch.isClosed = false) :
    post.head? = some .asked := by
  obtain ⟨q, rfl, _, ⟨next, hend, hpost⟩ | ⟨htripped, _, _⟩⟩ := listen_released h
  · rw [hpost]
    exact head?_listenFrom hoff
  · simp [Switch.isTripped, hoff, hopen] at htripped

/-- With a closed switch that is off, the loop stops, unless it asks again and its source overtakes
the switch. -/
theorem stops_of_isClosed
    (h : (listen depth favour start source p).journal = pre ++ .released switch :: post)
    (hoff : switch.isOn = false) (hclosed : switch.isClosed = true) :
    (¬ Overtakes favour source (asks pre) →
      Stops (listen depth favour start source p) post) ∧
    (Overtakes favour source (asks pre) → .asked ∈ post → .engaged ∈ post) := by
  obtain ⟨q, rfl, _, ⟨next, hend, hpost⟩ | ⟨_, hpost, hend⟩⟩ := listen_released h
  · -- The loop goes on with a closed switch; what it asks for next decides.
    have hasked := ask_ending_of_isClosed (favour (2 * asks pre))
      (nextFetch (source.fetches.drop (asks pre))) hoff hclosed
    by_cases hwins : ((nextFetch (source.fetches.drop (asks pre))).isImmediate &&
        favour (2 * asks pre)) = true
    · rw [if_pos hwins] at hasked
      have hboth := Bool.and_eq_true_iff.mp hwins
      refine ⟨fun hnot => ?_, fun hovertakes _ => ?_⟩
      · have hended : (nextFetch (source.fetches.drop (asks pre))).answer = .ended :=
          Decidable.byContradiction fun h => hnot ⟨h, hboth⟩
        obtain ⟨hreturned, hengaged, htaken⟩ := stops_of_ask hasked (.inr (congrArg some hended))
        exact ⟨hend.trans hreturned, hpost ▸ hengaged, hpost ▸ htaken⟩
      · rw [hpost]
        exact engaged_mem_of_ask hasked hovertakes.1
    · rw [if_neg hwins] at hasked
      refine ⟨fun _ => ?_, fun hovertakes _ => ?_⟩
      · obtain ⟨hreturned, hengaged, htaken⟩ := stops_of_ask hasked (.inl rfl)
        exact ⟨hend.trans hreturned, hpost ▸ hengaged, hpost ▸ htaken⟩
      · exact absurd (Bool.and_eq_true_iff.mpr hovertakes.2) hwins
  · subst hpost
    exact ⟨fun _ => ⟨hend, by simp, rfl⟩, fun _ hmem => by simp at hmem⟩

/-- What stops the loop behind a dispatch or a wait. If the last signal so far says stop, the loop
returns and dispatches nothing any more. If it does not, an earlier stop is lost: as long as
somebody can still turn the switch the loop asks the source again. If nobody can, the loop returns
without another dispatch, unless the source overtakes the switch. -/
theorem cancellation_of_released
    (h : (listen depth favour start source p).journal = pre ++ .released switch :: post) :
    (lastSignal? (arrivals pre) = some .stop →
      Stops (listen depth favour start source p) post ∧ .asked ∉ post) ∧
    (lastSignal? (arrivals pre) ≠ some .stop → .hangUp ∉ arrivals pre →
      post.head? = some .asked) ∧
    (lastSignal? (arrivals pre) ≠ some .stop → .hangUp ∈ arrivals pre →
      (¬ Overtakes favour source (asks pre) →
        Stops (listen depth favour start source p) post) ∧
      (Overtakes favour source (asks pre) → .asked ∈ post → .engaged ∈ post)) := by
  have hswitch := released_eq h
  subst hswitch
  refine ⟨fun hstop => ?_, fun hlost hopen => ?_, fun hlost hclosed => ?_⟩
  · exact stops_of_isOn h (decide_eq_true hstop)
  · exact head?_of_isOff h (decide_eq_false hlost) (decide_eq_false hopen)
  · exact stops_of_isClosed h (decide_eq_false hlost) (decide_eq_true hclosed)

end Released

def haltAndPing : Source :=
  .queue [[.ofMessage 0 { text := some "/halt" }], [.ofMessage 0 { text := some "/ping" }]]

/-- The loop over these batches; while the first command takes its time, its stop is taken back. -/
def recalledRun : Run Unit :=
  listen 1 (fun _ => true) { timers := [⟨5, .carryOn⟩] } haltAndPing
    (Processor.serving haltingModule)

/-- The stop and its recall both arrive while the first batch is dispatched. -/
theorem recalledRun_journal : ∃ before during post,
    recalledRun.journal = before ++ .engaged :: during ++ .released ⟨false, false⟩ :: post ∧
      asks during = 0 ∧ arrivals during = [.stop, .carryOn] ∧
      arrivals (before ++ .engaged :: during) = [.stop, .carryOn] ∧ .engaged ∈ post := by
  have hclock : Start.clock { timers := [⟨5, .carryOn⟩] } 0 =
      ⟨0, none, [⟨5, .carryOn⟩], ⟨false, false⟩⟩ := by simp [Start.clock]
  have hstarted : started { timers := [⟨5, .carryOn⟩] } (Processor.serving haltingModule) =
      { Processor.serving haltingModule with
        clock := ⟨0, none, [⟨5, .carryOn⟩], ⟨false, false⟩⟩ } :=
    congrArg (fun clock => { Processor.serving haltingModule with clock }) hclock
  refine ⟨recalledRun.journal.take 3, (recalledRun.journal.drop 4).take 10,
    recalledRun.journal.drop 15, ?_⟩
  unfold recalledRun
  rw [listen_apply, hstarted]
  exact ⟨rfl, rfl, rfl, rfl, List.mem_of_getElem? (i := 2) rfl⟩

/-- Where the recall comes last, the loop asks again. -/
theorem asked_of_recalled_stop : ∃ pre post,
    recalledRun.journal = pre ++ .released ⟨false, false⟩ :: post ∧
      lastSignal? (arrivals pre) ≠ some .stop ∧ post.head? = some .asked := by
  obtain ⟨before, during, post, hrun, _, _, harrivals, _⟩ := recalledRun_journal
  have hlost : lastSignal? (arrivals (before ++ .engaged :: during)) ≠ some .stop := by
    rw [harrivals]
    decide
  have hopen : .hangUp ∉ arrivals (before ++ .engaged :: during) := by
    rw [harrivals]
    decide
  exact ⟨_, post, hrun, hlost, (cancellation_of_released hrun).2.1 hlost hopen⟩

/-- Not every stop that arrives during a dispatch or a wait stops the loop. -/
theorem not_stops_of_recalled_stop :
    ¬ ∀ (depth : Nat) (favour : Favour) (start : Start) (source : Source) (p : Processor)
      (before during post : List Entry) (switch : Switch),
      (listen depth favour start source p).journal =
        before ++ .engaged :: during ++ .released switch :: post →
      asks during = 0 → (.stop ∈ arrivals during ∨ .hangUp ∈ arrivals during) →
        Stops (listen depth favour start source p) post := by
  intro h
  obtain ⟨before, during, post, hrun, hasks, hduring, _, hengaged⟩ := recalledRun_journal
  have hstop : .stop ∈ arrivals during := by
    rw [hduring]
    exact List.mem_cons_self
  exact (h _ _ _ _ _ before during post _ hrun hasks (.inl hstop)).engaged hengaged

end ChatDispatch.Listening
