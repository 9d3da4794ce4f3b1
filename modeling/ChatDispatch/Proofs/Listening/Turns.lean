import ChatDispatch.Proofs.Listening.Waiting

/-!
The turns of a loop. A turn ends before the loop engages in anything, or it engages in the dispatch
of a batch or in the wait after an error. Marks in the journal say where the loop was; dispatches
and waits leave none themselves.
-/

namespace ChatDispatch

def Entry.isMark : Entry → Bool
  | .asked | .engaged | .released _ => true
  | _ => false

theorem countP_eq_zero_of_unmarked {counts : Entry → Bool} {journal : List Entry}
    (hcounts : ∀ entry, counts entry = true → entry.isMark = true)
    (h : ∀ entry ∈ journal, entry.isMark = false) : journal.countP counts = 0 := by
  apply List.countP_eq_zero.mpr
  intro entry hmem hcounted
  exact Bool.noConfusion ((h entry hmem).symm.trans (hcounts entry hcounted))

def asks (journal : List Entry) : Nat := journal.countP fun entry => entry matches .asked

theorem asks_append (first second : List Entry) :
    asks (first ++ second) = asks first + asks second :=
  List.countP_append

theorem asks_eq_zero {journal : List Entry} (h : ∀ entry ∈ journal, entry.isMark = false) :
    asks journal = 0 :=
  countP_eq_zero_of_unmarked (fun | .asked, _ => rfl) h

/-- How many answers of its source a loop has engaged in. -/
def responses (journal : List Entry) : Nat := journal.countP fun entry => entry matches .engaged

theorem responses_append (first second : List Entry) :
    responses (first ++ second) = responses first + responses second :=
  List.countP_append

theorem responses_eq_zero {journal : List Entry} (h : ∀ entry ∈ journal, entry.isMark = false) :
    responses journal = 0 :=
  countP_eq_zero_of_unmarked (fun | .engaged, _ => rfl) h

theorem Processor.Waits.isMark {p q : Processor} {journal : List Entry} (h : p.Waits journal q) :
    ∀ entry ∈ journal, entry.isMark = false := by
  intro entry hmem
  have hentry := h.entries entry hmem
  cases entry <;> simp_all [Entry.isMark, Entry.isOfWait]

theorem Processor.Waits.log {p q : Processor} {journal : List Entry} (h : p.Waits journal q)
    (record : LogRecord) : p.Waits (journal ++ [.logged record]) q :=
  h.trans (Action.Idle.log record q).1

namespace Processor

variable (depth : Nat) (updates : List Update)

theorem dispatchBatch_isMark (p : Processor) :
    ∀ entry ∈ (dispatchBatch depth updates p).journal, entry.isMark = false := by
  have hmark : ∀ entry : Entry, entry.IsOfDispatch depth → entry.isMark = false := by
    rintro entry ⟨hkind, _⟩
    cases entry <;> simp_all [Entry.isMark, Entry.isStep, Entry.isSignal]
  refine (Action.closed_adds depth hmark).dispatchBatch ?_ ?_ updates p
  · exact fun _ _ => List.forall_mem_singleton.mpr rfl
  · exact fun _ _ => List.forall_mem_singleton.mpr rfl

theorem dispatchBatch_tracks : Action.Tracks _ (dispatchBatch depth updates) := by
  refine (Action.closed_tracks depth).dispatchBatch ?_ ?_ updates
  · exact fun _ _ => .of_silent (List.forall_mem_singleton.mpr rfl)
  · exact fun _ _ => .of_silent (List.forall_mem_singleton.mpr rfl)

end Processor

namespace Listening

open ChatDispatch.Action

section Engage

variable {α β : Type} {action : Action α} {p : Processor}

theorem engage_of_returned {value : α} (h : (action p).ending = .returned value) :
    engage action p = ⟨.returned value, (action p).after,
      .engaged :: (action p).journal ++ [.released (action p).after.clock.switch]⟩ := by
  unfold engage
  rw [enter_bind, bind_of_returned h]
  rfl

theorem engage_of_not_returned (h : ∀ value, (action p).ending ≠ .returned value) :
    engage action p =
      ⟨(action p).ending, (action p).after, .engaged :: (action p).journal⟩ := by
  unfold engage
  rw [enter_bind]
  cases hend : (action p).ending with
  | returned value => exact absurd hend (h value)
  | panicked panic => rw [bind_of_panicked hend]
  | hung => rw [bind_of_hung hend]

end Engage

inductive Engaged (depth : Nat) (answer : Answer) (p : Processor) : Run (Option Nat) → Prop
  | dispatched {updates : List Update} {outcomes : List Outcome}
      (hanswer : answer = .batch updates)
      (hreturned : (Processor.dispatchBatch depth updates p).ending = .returned outcomes) :
      Engaged depth answer p
        ⟨.returned (some (Processor.dispatchBatch depth updates p).after.settings.backoffInitial),
          (Processor.dispatchBatch depth updates p).after,
          .engaged :: (Processor.dispatchBatch depth updates p).journal ++
            [.released (Processor.dispatchBatch depth updates p).after.clock.switch]⟩
  | broken {updates : List Update} {ending : Ending (Option Nat)}
      (hanswer : answer = .batch updates)
      (hbroken : ∀ outcomes,
        (Processor.dispatchBatch depth updates p).ending ≠ .returned outcomes)
      (hending : ∀ next, ending ≠ .returned next) :
      Engaged depth answer p ⟨ending, (Processor.dispatchBatch depth updates p).after,
        .engaged :: (Processor.dispatchBatch depth updates p).journal⟩
  | waited {cause : Cause} {next : Nat} {q : Processor} {journal : List Entry}
      (hanswer : answer = .failed cause) (hwaits : p.Waits journal q) :
      Engaged depth answer p
        ⟨.returned (some next), q, .engaged :: journal ++ [.released q.clock.switch]⟩
  | abandoned {cause : Cause} {q : Processor} {journal : List Entry}
      (hanswer : answer = .failed cause) (hwaits : p.Waits journal q)
      (htripped : q.clock.switch.isTripped = true) :
      Engaged depth answer p ⟨.returned none, q,
        .engaged :: journal ++ [.released q.clock.switch, .logged .cancelled]⟩
  | hung {cause : Cause} {q : Processor} {journal : List Entry}
      (hanswer : answer = .failed cause) (hwaits : p.Waits journal q) :
      Engaged depth answer p ⟨.hung, q, .engaged :: journal⟩

/-- The marks of an engagement: the one it begins with, and that of its end. -/
theorem Engaged.marks {depth : Nat} {answer : Answer} {p : Processor} {run : Run (Option Nat)}
    (h : Engaged depth answer p run) : asks run.journal = 0 ∧ responses run.journal = 1 := by
  have hopen : ∀ {journal : List Entry}, (∀ entry ∈ journal, entry.isMark = false) →
      asks ([.engaged] ++ journal) = 0 ∧ responses ([.engaged] ++ journal) = 1 := by
    intro journal hjournal
    rw [asks_append, responses_append, asks_eq_zero hjournal, responses_eq_zero hjournal]
    exact ⟨rfl, rfl⟩
  have hclosed : ∀ {journal : List Entry} (behind : List Entry),
      (∀ entry ∈ journal, entry.isMark = false) → asks behind = 0 → responses behind = 0 →
        asks ([.engaged] ++ journal ++ behind) = 0 ∧
          responses ([.engaged] ++ journal ++ behind) = 1 := by
    intro journal behind hjournal hasks hresponses
    rw [asks_append, responses_append, (hopen hjournal).1, (hopen hjournal).2, hasks, hresponses]
    exact ⟨rfl, rfl⟩
  cases h with
  | dispatched hanswer hreturned =>
    exact hclosed [.released _] (Processor.dispatchBatch_isMark depth _ _) rfl rfl
  | broken hanswer hbroken hending => exact hopen (Processor.dispatchBatch_isMark depth _ _)
  | waited hanswer hwaits => exact hclosed [.released _] hwaits.isMark rfl rfl
  | abandoned hanswer hwaits htripped =>
    exact hclosed [.released _, .logged .cancelled] hwaits.isMark rfl rfl
  | hung hanswer hwaits => exact hopen hwaits.isMark

/-- What comes of a turn: the loop shuts down, the turn is over before the loop engages in anything,
or the loop engages in the response to the answer. -/
inductive Turned (depth : Nat) (fetch : Fetch) (p : Processor) : Run (Option Nat) → Prop
  | shut (hon : p.clock.switch.isOn = true) :
      Turned depth fetch p ⟨.returned none, p, [.logged .shuttingDown]⟩
  | early {ending : Ending (Option Nat)} {q : Processor} {journal : List Entry}
      (hending : ending = .returned none ∨ ending = .hung)
      (hoff : p.clock.switch.isOn = false) (hwaits : p.Waits journal q) :
      Turned depth fetch p ⟨ending, q, .asked :: journal⟩
  | engaged {q : Processor} {journal : List Entry} {run : Run (Option Nat)}
      (hoff : p.clock.switch.isOn = false) (hwaits : p.Waits journal q)
      (hengaged : Engaged depth fetch.answer q run) :
      Turned depth fetch p ⟨run.ending, run.after, .asked :: journal ++ run.journal⟩

section Respond

variable {depth : Nat} {favour : Favour} {name : String} {turn backoff : Nat} {p : Processor}

theorem respond_of_dispatched {updates : List Update} {outcomes : List Outcome}
    (h : (Processor.dispatchBatch depth updates p).ending = .returned outcomes) :
    respond depth favour name turn backoff (some (.batch updates)) p =
      ⟨.returned (some (Processor.dispatchBatch depth updates p).after.settings.backoffInitial),
        (Processor.dispatchBatch depth updates p).after,
        .logged (.batchReceived updates.length) ::
          (.engaged :: (Processor.dispatchBatch depth updates p).journal ++
            [.released (Processor.dispatchBatch depth updates p).after.clock.switch])⟩ := by
  have hengage := engage_of_returned h
  have hreturned : (engage (Processor.dispatchBatch depth updates) p).ending = .returned outcomes :=
    congrArg Run.ending hengage
  rw [respond, log_bind, bind_of_returned hreturned, hengage, state_bind]
  simp only [pure_apply, List.append_nil]

theorem respond_of_waited {cause : Cause}
    (h : (retryWait (favour (turn + 1)) backoff p).ending = .returned false) :
    respond depth favour name turn backoff (some (.failed cause)) p =
      ⟨.returned (some (nextBackoff
          (retryWait (favour (turn + 1)) backoff p).after.settings backoff)),
        (retryWait (favour (turn + 1)) backoff p).after,
        .logged (.fetchFailed cause.text backoff) ::
          (.engaged :: (retryWait (favour (turn + 1)) backoff p).journal ++
            [.released (retryWait (favour (turn + 1)) backoff p).after.clock.switch])⟩ := by
  have hengage := engage_of_returned h
  have hreturned : (engage (retryWait (favour (turn + 1)) backoff) p).ending = .returned false :=
    congrArg Run.ending hengage
  rw [respond, log_bind, bind_of_returned hreturned, hengage]
  simp only [Bool.false_eq_true, if_false, state_bind, pure_apply, List.append_nil]

variable (depth) in
/-- Whatever the dispatch of a batch comes to, the loop is engaged in it. -/
theorem respond_batch (updates : List Update) :
    ∃ run, Engaged depth (.batch updates) p run ∧
      respond depth favour name turn backoff (some (.batch updates)) p =
        ⟨run.ending, run.after, .logged (.batchReceived updates.length) :: run.journal⟩ := by
  cases hend : (Processor.dispatchBatch depth updates p).ending with
  | returned outcomes => exact ⟨_, .dispatched rfl hend, respond_of_dispatched hend⟩
  | panicked panic =>
    have hnot : ∀ outcomes,
        (Processor.dispatchBatch depth updates p).ending ≠ .returned outcomes := by simp [hend]
    have hengage := engage_of_not_returned hnot
    refine ⟨⟨.panicked panic, _, _⟩, .broken rfl hnot nofun, ?_⟩
    rw [respond, log_bind, bind_of_panicked ((congrArg Run.ending hengage).trans hend), hengage]
  | hung =>
    have hnot : ∀ outcomes,
        (Processor.dispatchBatch depth updates p).ending ≠ .returned outcomes := by simp [hend]
    have hengage := engage_of_not_returned hnot
    refine ⟨⟨.hung, _, _⟩, .broken rfl hnot nofun, ?_⟩
    rw [respond, log_bind, bind_of_hung ((congrArg Run.ending hengage).trans hend), hengage]

variable (depth) in
/-- Whatever the wait after an error comes to, the loop is engaged in it. -/
theorem respond_failed (cause : Cause) :
    ∃ run, Engaged depth (.failed cause) p run ∧
      respond depth favour name turn backoff (some (.failed cause)) p =
        ⟨run.ending, run.after, .logged (.fetchFailed cause.text backoff) :: run.journal⟩ := by
  obtain ⟨hwaits, hpanic⟩ := retryWait_idle (favour (turn + 1)) backoff p
  cases hend : (retryWait (favour (turn + 1)) backoff p).ending with
  | returned tripped =>
    cases tripped with
    | false => exact ⟨_, .waited rfl hwaits, respond_of_waited hend⟩
    | true =>
      have hengage := engage_of_returned hend
      have hreturned : (engage (retryWait (favour (turn + 1)) backoff) p).ending =
          .returned true := congrArg Run.ending hengage
      refine ⟨_, .abandoned rfl hwaits (isTripped_of_retryWait hend), ?_⟩
      rw [respond, log_bind, bind_of_returned hreturned, hengage]
      simp only [if_true, log_bind, pure_apply, List.append_assoc, List.cons_append,
        List.nil_append]
  | panicked panic => exact absurd hend (hpanic panic)
  | hung =>
    have hnot : ∀ tripped,
        (retryWait (favour (turn + 1)) backoff p).ending ≠ .returned tripped := by simp [hend]
    have hengage := engage_of_not_returned hnot
    refine ⟨_, .hung rfl hwaits, ?_⟩
    rw [respond, log_bind, bind_of_hung ((congrArg Run.ending hengage).trans hend), hengage]

end Respond

section Turn

variable (depth : Nat) (favour : Favour) (name : String) (turn backoff : Nat)

theorem takeTurn_turned (fetch : Fetch) (p : Processor) :
    Turned depth fetch p (takeTurn depth favour name turn backoff fetch p) := by
  have hasked := ask_asked (favour turn) fetch p
  generalize hrun : ask (favour turn) fetch p = run at hasked
  have hending := congrArg Run.ending hrun
  unfold takeTurn
  cases hasked with
  | shut hon =>
    rw [bind_of_returned hending, hrun]
    exact .shut hon
  | cutOff hoff hwaits =>
    rw [bind_of_returned hending, hrun]
    exact .early (.inl rfl) hoff (hwaits.log .cancelled |>.trans (.refl _))
  | hung hoff hwaits =>
    rw [bind_of_hung hending, hrun]
    exact .early (.inr rfl) hoff hwaits
  | @answered q journal hoff hwaits =>
    rw [bind_of_returned hending, hrun]
    dsimp only
    cases hanswer : fetch.answer with
    | ended => exact .early (.inl rfl) hoff (hwaits.log (.sourceClosed name))
    | batch updates =>
      obtain ⟨run, hengaged, hrespond⟩ := respond_batch depth updates
      rw [hrespond]
      rw [← hanswer] at hengaged
      have h := Turned.engaged hoff (hwaits.log (.batchReceived updates.length)) hengaged
      simpa only [List.append_assoc, List.cons_append, List.nil_append] using h
    | failed cause =>
      obtain ⟨run, hengaged, hrespond⟩ := respond_failed depth cause
      rw [hrespond]
      rw [← hanswer] at hengaged
      have h := Turned.engaged hoff (hwaits.log (.fetchFailed cause.text backoff)) hengaged
      simpa only [List.append_assoc, List.cons_append, List.nil_append] using h

end Turn

/-- A source that has ended lets the loop stop. -/
theorem Turned.ne_some_of_ended {depth : Nat} {fetch : Fetch} {p : Processor}
    {run : Run (Option Nat)} (h : Turned depth fetch p run) (hended : fetch.answer = .ended)
    (next : Nat) : run.ending ≠ .returned (some next) := by
  cases h with
  | shut hon => exact nofun
  | early hending hoff hwaits => rcases hending with h | h <;> simp [h]
  | engaged hoff hwaits hengaged =>
    cases hengaged with
    | dispatched hanswer _ => simp [hended] at hanswer
    | broken hanswer _ _ => simp [hended] at hanswer
    | waited hanswer _ => simp [hended] at hanswer
    | abandoned hanswer _ _ => simp [hended] at hanswer
    | hung hanswer _ => simp [hended] at hanswer

/-- A turn asks once at most, and engages in the answer if the loop goes on. -/
theorem Turned.marks {depth : Nat} {fetch : Fetch} {p : Processor} {run : Run (Option Nat)}
    (h : Turned depth fetch p run) :
    asks run.journal ≤ 1 ∧ (responses run.journal = 1 ∨
      responses run.journal = 0 ∧ ∀ next, run.ending ≠ .returned (some next)) := by
  cases h with
  | shut hon => exact ⟨Nat.zero_le 1, .inr ⟨rfl, nofun⟩⟩
  | @early ending q journal hending hoff hwaits =>
    have hasks : asks ([.asked] ++ journal) = 1 + asks journal := asks_append _ _
    have hresponses : responses ([.asked] ++ journal) = 0 + responses journal :=
      responses_append _ _
    rw [asks_eq_zero hwaits.isMark] at hasks
    rw [responses_eq_zero hwaits.isMark] at hresponses
    refine ⟨Nat.le_of_eq hasks, .inr ⟨hresponses, fun next hnext => ?_⟩⟩
    rcases hending with h | h <;> simp [h] at hnext
  | @engaged q journal run hoff hwaits hengaged =>
    obtain ⟨hasked, hengaged⟩ := hengaged.marks
    have hasks : asks ([.asked] ++ journal ++ run.journal) = 1 := by
      rw [asks_append, asks_append, asks_eq_zero hwaits.isMark, hasked]
      rfl
    have hresponses : responses ([.asked] ++ journal ++ run.journal) = 1 := by
      rw [responses_append, responses_append, responses_eq_zero hwaits.isMark, hengaged]
      rfl
    exact ⟨Nat.le_of_eq hasks, .inl hresponses⟩

theorem Turned.responses_le {depth : Nat} {fetch : Fetch} {p : Processor}
    {run : Run (Option Nat)} (h : Turned depth fetch p run) : responses run.journal ≤ 1 := by
  rcases h.marks.2 with hone | ⟨hnone, _⟩
  · exact Nat.le_of_eq hone
  · exact hnone ▸ Nat.zero_le 1

theorem Turned.responses_of_some {depth : Nat} {fetch : Fetch} {p : Processor}
    {run : Run (Option Nat)} (h : Turned depth fetch p run) {next : Nat}
    (hnext : run.ending = .returned (some next)) : responses run.journal = 1 := by
  rcases h.marks.2 with hone | ⟨_, hnot⟩
  · exact hone
  · exact absurd hnext (hnot next)

end Listening

end ChatDispatch
