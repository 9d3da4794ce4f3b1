import ChatDispatch.Proofs.Listening.Turns

/-!
The run of a loop as a sequence of turns, and where it can be cut. Every turn but the last ends with
the mark that the loop was released. What is behind such a mark is again a run of the loop, over the
fetches that are left, or the record that a wait was cut off.
-/

namespace ChatDispatch

def Run.andThen {α β : Type} (run : Run α) (further : Run β) : Run β :=
  ⟨further.ending, further.after, run.journal ++ further.journal⟩

/-- The run of a loop of which this is the last turn. -/
def Run.asLast (run : Run (Option Nat)) : Run Unit :=
  ⟨run.ending.map fun _ => (), run.after, run.journal⟩

namespace Listening

open ChatDispatch.Action

def nextFetch : List Fetch → Fetch
  | [] => { answer := .ended }
  | fetch :: _ => fetch

theorem bind_of_last {action : Action (Option Nat)} {next : Option Nat → Action Unit}
    {p : Processor} (hnext : next none = pure ())
    (h : ∀ wait, (action p).ending ≠ .returned (some wait)) :
    (action >>= next) p = (action p).asLast := by
  unfold Run.asLast
  cases hend : (action p).ending with
  | returned wait? =>
    cases wait? with
    | some wait => exact absurd hend (h wait)
    | none =>
      rw [bind_of_returned hend, hnext, pure_apply, List.append_nil]
      rfl
  | panicked panic => rw [bind_of_panicked hend, Ending.map]
  | hung => rw [bind_of_hung hend, Ending.map]

section Run

variable {depth : Nat} {favour : Favour} {name : String}

/-- A turn that finds the loop still going is followed by the run over the fetches that are left. -/
theorem listenFrom_of_some {turn backoff next : Nat} {fetch : Fetch} {rest : List Fetch}
    {p : Processor}
    (h : (takeTurn depth favour name turn backoff fetch p).ending = .returned (some next)) :
    listenFrom depth favour name turn backoff (fetch :: rest) p =
      (takeTurn depth favour name turn backoff fetch p).andThen
        (listenFrom depth favour name (turn + 2) next rest
          (takeTurn depth favour name turn backoff fetch p).after) := by
  rw [listenFrom, bind_of_returned h]
  rfl

/-- A turn that does not is the last of the run. -/
theorem listenFrom_of_last {turn backoff : Nat} {fetches : List Fetch} {p : Processor}
    (h : ∀ next, (takeTurn depth favour name turn backoff (nextFetch fetches) p).ending ≠
      .returned (some next)) :
    listenFrom depth favour name turn backoff fetches p =
      (takeTurn depth favour name turn backoff (nextFetch fetches) p).asLast := by
  cases fetches with
  | nil => exact bind_of_last rfl h
  | cons fetch rest => exact bind_of_last rfl h

/-- A property of runs that a last turn has, and that is not lost in front of a run, is one of every
run of the loop. -/
theorem listenFrom_induction {motive : Nat → Nat → List Fetch → Processor → Run Unit → Prop}
    (last : ∀ turn backoff fetches p,
      (∀ next, (takeTurn depth favour name turn backoff (nextFetch fetches) p).ending ≠
        .returned (some next)) →
      motive turn backoff fetches p
        (takeTurn depth favour name turn backoff (nextFetch fetches) p).asLast)
    (more : ∀ turn backoff fetch rest p next,
      (takeTurn depth favour name turn backoff fetch p).ending = .returned (some next) →
      motive (turn + 2) next rest (takeTurn depth favour name turn backoff fetch p).after
        (listenFrom depth favour name (turn + 2) next rest
          (takeTurn depth favour name turn backoff fetch p).after) →
      motive turn backoff (fetch :: rest) p
        ((takeTurn depth favour name turn backoff fetch p).andThen
          (listenFrom depth favour name (turn + 2) next rest
            (takeTurn depth favour name turn backoff fetch p).after)))
    (turn backoff : Nat) (fetches : List Fetch) (p : Processor) :
    motive turn backoff fetches p (listenFrom depth favour name turn backoff fetches p) := by
  induction fetches generalizing turn backoff p with
  | nil =>
    have hturned := takeTurn_turned depth favour name turn backoff (nextFetch []) p
    have hlast := hturned.ne_some_of_ended rfl
    rw [listenFrom_of_last hlast]
    exact last turn backoff [] p hlast
  | cons fetch rest ih =>
    by_cases hlast : ∀ next, (takeTurn depth favour name turn backoff fetch p).ending ≠
        .returned (some next)
    · have hrun : listenFrom depth favour name turn backoff (fetch :: rest) p = _ :=
        listenFrom_of_last hlast
      rw [hrun]
      exact last turn backoff (fetch :: rest) p hlast
    · obtain ⟨next, hnext⟩ := Classical.not_forall_not.mp hlast
      rw [listenFrom_of_some hnext]
      exact more turn backoff fetch rest p next hnext (ih _ _ _)

end Run

/-- A stretch of the journal from the question to the source up to where the loop is released. -/
structure Stretch (p : Processor) (journal : List Entry) (q : Processor) : Prop where
  clock : p.clock.Follows journal q.clock
  asks : asks journal = 1
  released : ∀ switch, .released switch ∉ journal

theorem not_released_mem {journal : List Entry} (h : ∀ entry ∈ journal, entry.isMark = false)
    (switch : Switch) : .released switch ∉ journal :=
  fun hmem => Bool.noConfusion (h _ hmem)

theorem Stretch.mk' {p q r : Processor} {first second : List Entry} (hwaits : p.Waits first q)
    (hclock : q.clock.Follows second r.clock) (hmark : ∀ entry ∈ second, entry.isMark = false) :
    Stretch p (.asked :: first ++ .engaged :: second) r := by
  refine ⟨(hwaits.clock.cons rfl).trans (hclock.cons rfl), ?_, fun switch hmem => ?_⟩
  · change ChatDispatch.asks (([.asked] ++ first) ++ ([.engaged] ++ second)) = 1
    rw [asks_append, asks_append, asks_append, asks_eq_zero hwaits.isMark, asks_eq_zero hmark]
    rfl
  · rcases List.mem_append.mp hmem with hmem | hmem
    · have hfirst := not_released_mem hwaits.isMark switch
      simp_all
    · have hsecond := not_released_mem hmark switch
      simp_all

/-- Where a turn releases the loop: at its end, if the loop goes on, or in front of the record that
a wait was cut off. -/
theorem Turned.cases_released {depth : Nat} {fetch : Fetch} {p : Processor}
    {run : Run (Option Nat)} (h : Turned depth fetch p run) :
    (∃ journal next, Stretch p journal run.after ∧ run.ending = .returned (some next) ∧
      run.journal = journal ++ [.released run.after.clock.switch]) ∨
    (∃ journal, Stretch p journal run.after ∧ run.ending = .returned none ∧
      run.after.clock.switch.isTripped = true ∧
      run.journal = journal ++ [.released run.after.clock.switch, .logged .cancelled]) ∨
    ((∀ next, run.ending ≠ .returned (some next)) ∧
      ∀ switch, .released switch ∉ run.journal) := by
  cases h with
  | shut hon => exact .inr (.inr ⟨nofun, by simp⟩)
  | early hending hoff hwaits =>
    refine .inr (.inr ⟨fun next hnext => ?_, fun switch hmem => ?_⟩)
    · rcases hending with h | h <;> simp [h] at hnext
    · have hnot := not_released_mem hwaits.isMark switch
      simp_all
  | engaged hoff hwaits hengaged =>
    cases hengaged with
    | dispatched hanswer hreturned =>
      refine .inl ⟨_, _, .mk' hwaits (Processor.dispatchBatch_tracks depth _ _)
        (Processor.dispatchBatch_isMark depth _ _), rfl, ?_⟩
      simp only [List.append_assoc, List.cons_append]
    | broken hanswer hbroken hending =>
      refine .inr (.inr ⟨fun next => hending _, ?_⟩)
      exact (Stretch.mk' hwaits (Processor.dispatchBatch_tracks depth _ _)
        (Processor.dispatchBatch_isMark depth _ _)).released
    | waited hanswer hwaits' =>
      refine .inl ⟨_, _, .mk' hwaits hwaits'.clock hwaits'.isMark, rfl, ?_⟩
      simp only [List.append_assoc, List.cons_append]
    | abandoned hanswer hwaits' htripped =>
      refine .inr (.inl ⟨_, .mk' hwaits hwaits'.clock hwaits'.isMark, rfl, htripped, ?_⟩)
      simp only [List.append_assoc, List.cons_append]
    | hung hanswer hwaits' =>
      exact .inr (.inr ⟨nofun, (Stretch.mk' hwaits hwaits'.clock hwaits'.isMark).released⟩)

/-- Two ways to cut a journal where the loop was released: the first comes first. -/
theorem released_append {pre post first rest : List Entry} {s t : Switch}
    (hfirst : ∀ switch, .released switch ∉ first)
    (h : pre ++ .released s :: post = first ++ .released t :: rest) :
    (pre = first ∧ s = t ∧ post = rest) ∨
      ∃ between, pre = first ++ .released t :: between ∧ rest = between ++ .released s :: post := by
  rcases List.append_eq_append_iff.mp h with ⟨middle, hmiddle, hrest⟩ | ⟨middle, hmiddle, hrest⟩
  · cases middle with
    | nil =>
      simp only [List.nil_append, List.cons.injEq, Entry.released.injEq] at hrest
      simp only [List.append_nil] at hmiddle
      exact .inl ⟨hmiddle.symm, hrest.1, hrest.2⟩
    | cons entry middle =>
      simp only [List.cons_append, List.cons.injEq] at hrest
      exact absurd (by simp [hmiddle, hrest.1]) (hfirst s)
  · cases middle with
    | nil =>
      simp only [List.nil_append, List.cons.injEq, Entry.released.injEq] at hrest
      simp only [List.append_nil] at hmiddle
      exact .inl ⟨hmiddle, hrest.1.symm, hrest.2.symm⟩
    | cons entry middle =>
      simp only [List.cons_append, List.cons.injEq] at hrest
      exact .inr ⟨middle, by rw [hmiddle, hrest.1], hrest.2⟩

/-- In a turn that is the last, the loop is released only from a wait that is cut off. -/
theorem Turned.released_of_last {depth : Nat} {fetch : Fetch} {p : Processor}
    {run : Run (Option Nat)} (h : Turned depth fetch p run) {pre post : List Entry}
    {switch : Switch} (hlast : ∀ next, run.ending ≠ .returned (some next))
    (hrun : run.journal = pre ++ .released switch :: post) :
    run.after.clock.switch = switch ∧ p.clock.Follows pre run.after.clock ∧
      switch.isTripped = true ∧ post = [.logged .cancelled] ∧ run.ending = .returned none := by
  rcases h.cases_released with ⟨_, next, _, hnext, _⟩ | ⟨journal, hstretch, hend, htripped, heq⟩ |
    ⟨_, hnot⟩
  · exact absurd hnext (hlast next)
  · rcases released_append hstretch.released (hrun.symm.trans heq) with
      ⟨rfl, rfl, hpost⟩ | ⟨between, _, hrest⟩
    · exact ⟨rfl, hstretch.clock, htripped, hpost, hend⟩
    · cases between <;> simp at hrest
  · exact absurd (by simp [hrun]) (hnot switch)

/-- Behind a point where the loop was released, in this state, the journal holds what the loop adds
over the fetches that are left, or the record that a wait was cut off. -/
def Resumes (depth : Nat) (favour : Favour) (name : String) (turn : Nat) (fetches : List Fetch)
    (q : Processor) (run : Run Unit) (post : List Entry) : Prop :=
  (∃ next, run.ending = (listenFrom depth favour name turn next fetches q).ending ∧
    post = (listenFrom depth favour name turn next fetches q).journal) ∨
  (q.clock.switch.isTripped = true ∧ post = [.logged .cancelled] ∧ run.ending = .returned ())

theorem listenFrom_released {depth : Nat} {favour : Favour} {name : String} (turn backoff : Nat)
    (fetches : List Fetch) (p : Processor) {post : List Entry} {switch : Switch} :
    ∀ pre, (listenFrom depth favour name turn backoff fetches p).journal =
        pre ++ .released switch :: post →
      ∃ q, q.clock.switch = switch ∧ p.clock.Follows pre q.clock ∧
        Resumes depth favour name (turn + 2 * asks pre) (fetches.drop (asks pre)) q
          (listenFrom depth favour name turn backoff fetches p) post := by
  refine listenFrom_induction (motive := fun turn backoff fetches p run =>
    ∀ pre, run.journal = pre ++ .released switch :: post → ∃ q, q.clock.switch = switch ∧
      p.clock.Follows pre q.clock ∧
        Resumes depth favour name (turn + 2 * asks pre) (fetches.drop (asks pre)) q run post)
    ?_ ?_ turn backoff fetches p
  · intro turn backoff fetches p hlast pre hrun
    have hturned := takeTurn_turned depth favour name turn backoff (nextFetch fetches) p
    obtain ⟨rfl, hclock, htripped, hpost, hend⟩ := hturned.released_of_last hlast hrun
    refine ⟨_, rfl, hclock, .inr ⟨htripped, hpost, ?_⟩⟩
    unfold Run.asLast
    rw [hend]
    rfl
  · intro turn backoff fetch rest p next hnext ih pre hrun
    -- The loop goes on, so this turn ends with its release: the cut is there, or further behind.
    have hturned := takeTurn_turned depth favour name turn backoff fetch p
    rcases hturned.cases_released with ⟨journal, _, hstretch, _, heq⟩ | ⟨_, _, hend, _⟩ |
      ⟨hnone, _⟩
    · unfold Run.andThen at hrun
      rw [heq, List.append_assoc, List.singleton_append] at hrun
      rcases released_append hstretch.released hrun.symm with
        ⟨rfl, hswitch, hpost⟩ | ⟨between, hpre, hrest⟩
      · refine ⟨_, hswitch.symm, hstretch.clock, .inl ⟨next, ?_⟩⟩
        rw [hstretch.asks]
        exact ⟨rfl, hpost⟩
      · obtain ⟨q, hswitch, hclock, hafter⟩ := ih between hrest
        have hasks : asks pre = asks between + 1 := by
          rw [hpre, asks_append, hstretch.asks, Nat.add_comm]
          exact congrArg (· + 1) (asks_append [.released _] between |>.trans (Nat.zero_add _))
        have hturns : turn + 2 * asks pre = turn + 2 + 2 * asks between := by omega
        refine ⟨q, hswitch, ?_, ?_⟩
        · rw [hpre]
          exact hstretch.clock.trans (.cons rfl hclock)
        · rw [hturns, hasks, List.drop_succ_cons]
          exact hafter
    · exact absurd (hnext.symm.trans hend) nofun
    · exact absurd hnext (hnone next)

/-- The journal of a run begins with that of its first turn. -/
theorem takeTurn_begins (depth : Nat) (favour : Favour) (name : String) (turn backoff : Nat)
    (fetches : List Fetch) (p : Processor) :
    (takeTurn depth favour name turn backoff (nextFetch fetches) p).journal <+:
      (listenFrom depth favour name turn backoff fetches p).journal := by
  refine listenFrom_induction (motive := fun turn backoff fetches p run =>
    (takeTurn depth favour name turn backoff (nextFetch fetches) p).journal <+: run.journal)
    ?_ ?_ turn backoff fetches p
  · intro turn backoff fetches p hlast
    exact List.prefix_refl _
  · intro turn backoff fetch rest p next hnext ih
    exact List.prefix_append _ _

/-- A loop whose switch is on shuts down before it asks for anything. -/
theorem listenFrom_of_isOn {depth : Nat} {favour : Favour} {name : String} {fetches : List Fetch}
    {turn backoff : Nat} {p : Processor} (hon : p.clock.switch.isOn = true) :
    listenFrom depth favour name turn backoff fetches p =
      ⟨.returned (), p, [.logged .shuttingDown]⟩ := by
  have hturn : takeTurn depth favour name turn backoff (nextFetch fetches) p =
      ⟨.returned none, p, [.logged .shuttingDown]⟩ := by
    unfold takeTurn
    have hask := @ask_of_isOn (favour turn) (nextFetch fetches) p hon
    rw [bind_of_returned (congrArg Run.ending hask), hask]
    rfl
  rw [listenFrom_of_last (by simp [hturn]), hturn]
  rfl

def started (start : Start) (p : Processor) : Processor :=
  { p with clock := start.clock p.clock.now }

theorem listen_apply (depth : Nat) (favour : Favour) (start : Start) (source : Source)
    (p : Processor) :
    listen depth favour start source p =
      ⟨(listenFrom depth favour source.name 0 p.settings.backoffInitial source.fetches
          (started start p)).ending,
        (listenFrom depth favour source.name 0 p.settings.backoffInitial source.fetches
          (started start p)).after,
        .logged (.listening source.name p.settings.group) ::
          (listenFrom depth favour source.name 0 p.settings.backoffInitial source.fetches
            (started start p)).journal⟩ := rfl

/-- Behind a point where the loop was released it goes on as from the state at that point; the
switch has been sent all the signals that arrived so far. -/
theorem listen_released {depth : Nat} {favour : Favour} {start : Start} {source : Source}
    {p : Processor} {pre post : List Entry} {switch : Switch}
    (h : (listen depth favour start source p).journal = pre ++ .released switch :: post) :
    ∃ q, q.clock.switch = switch ∧ (start.clock p.clock.now).Follows pre q.clock ∧
      Resumes depth favour source.name (2 * asks pre) (source.fetches.drop (asks pre)) q
        (listen depth favour start source p) post := by
  rw [listen_apply] at h ⊢
  cases pre with
  | nil => cases h
  | cons entry pre =>
    obtain ⟨rfl, hrun⟩ := List.cons.inj h
    have hasks : asks (.logged (.listening source.name p.settings.group) :: pre) = asks pre :=
      (asks_append [_] pre).trans (Nat.zero_add _)
    obtain ⟨q, hswitch, hclock, hafter⟩ := listenFrom_released _ _ _ _ pre hrun
    rw [Nat.zero_add] at hafter
    refine ⟨q, hswitch, .cons rfl hclock, ?_⟩
    rw [hasks]
    exact hafter

/-- Where the switch is on when the loop is released, the loop returns, and says no more than why.
-/
theorem listen_of_isOn {depth : Nat} {favour : Favour} {start : Start} {source : Source}
    {p : Processor} {pre post : List Entry} {switch : Switch}
    (h : (listen depth favour start source p).journal = pre ++ .released switch :: post)
    (hon : switch.isOn = true) :
    (listen depth favour start source p).ending = .returned () ∧
      ∃ record, post = [.logged record] := by
  obtain ⟨q, rfl, _, ⟨next, hend, hpost⟩ | ⟨_, hpost, hend⟩⟩ := listen_released h
  · rw [listenFrom_of_isOn hon] at hend hpost
    exact ⟨hend, .shuttingDown, hpost⟩
  · exact ⟨hend, .cancelled, hpost⟩

end Listening

end ChatDispatch
