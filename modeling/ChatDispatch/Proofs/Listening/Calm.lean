import ChatDispatch.Proofs.Dispatch.Sequence
import ChatDispatch.Proofs.Listening.Waiting

/-!
Calm clocks and quiet sources. As long as only signals to carry on are sent, no fetch and no wait is
cut off, and what passes meanwhile leaves nothing of dispatches in the journal.
-/

namespace ChatDispatch

def steps (journal : List Entry) : List Entry := journal.filter Entry.isStep

theorem steps_append (first second : List Entry) :
    steps (first ++ second) = steps first ++ steps second :=
  List.filter_append ..

theorem steps_eq_nil {journal : List Entry} (h : ∀ entry ∈ journal, entry.isStep = false) :
    steps journal = [] := by
  apply List.filter_eq_nil_iff.mpr
  intro entry hmem hstep
  exact Bool.noConfusion ((h entry hmem).symm.trans hstep)

theorem steps_acts (journal : List Entry) : steps (acts journal) = steps journal := by
  unfold steps acts
  rw [List.filter_filter]
  apply List.filter_congr
  intro entry _
  cases hstep : entry.isStep <;> simp [Entry.isAct, hstep]

theorem signalled_mem_acts {journal : List Entry} {sent : Signal} :
    .signalled sent ∈ acts journal ↔ .signalled sent ∈ journal := by
  simp [acts, Entry.isAct]

theorem mem_arrivals {journal : List Entry} {signal : Signal} (h : signal ∈ arrivals journal) :
    .signalled signal ∈ journal ∨ ∃ timer ∈ expiries journal, timer.signal = signal := by
  obtain ⟨entry, hmem, hentry⟩ := List.mem_filterMap.mp h
  split at hentry
  next sent =>
    obtain rfl := Option.some.inj hentry
    exact .inl hmem
  next timer =>
    exact .inr ⟨timer, List.mem_filterMap.mpr ⟨_, hmem, rfl⟩, Option.some.inj hentry⟩
  · cases hentry

/-- Nobody gives up waiting, and nothing but signals to carry on is due. -/
structure Clock.Calm (clock : Clock) : Prop where
  deadline : clock.deadline = none
  switch : clock.switch = ⟨false, false⟩
  timers : ∀ timer ∈ clock.timers, timer.signal = .carryOn

namespace Clock.Calm

theorem isTripped {clock : Clock} (h : clock.Calm) : clock.switch.isTripped = false := by
  rw [h.switch]
  rfl

/-- A calm clock stays calm while only signals to carry on are sent. -/
theorem follows {before after : Clock} {journal : List Entry} (h : before.Calm)
    (hfollows : before.Follows journal after)
    (hsent : ∀ sent, .signalled sent ∈ journal → sent = .carryOn) : after.Calm where
  deadline := hfollows.deadline.trans h.deadline
  switch := by
    have harrivals : ∀ signal ∈ arrivals journal, signal = .carryOn := by
      intro signal hmem
      rcases mem_arrivals hmem with hsignalled | ⟨timer, htimer, rfl⟩
      · exact hsent signal hsignalled
      · apply h.timers timer
        rw [hfollows.timers]
        exact List.mem_append_left _ htimer
    have hoff : before.switch.isOn = false := by rw [h.switch]
    rw [hfollows.switch, Switch.sendAll_of_carryOn hoff harrivals, h.switch]
  timers := by
    intro timer hmem
    apply h.timers timer
    rw [hfollows.timers]
    exact List.mem_append_right _ hmem

/-- A wait is tripped only by the switch, and that of a calm clock never is. -/
theorem waitEnd_ne_tripped {clock : Clock} (h : clock.Calm) {wait : Clock → Clock.Waited}
    (hlawful : Clock.Lawful wait) : (wait clock).waitEnd ≠ .tripped := by
  intro htripped
  have hcalm : (wait clock).clock.Calm := h.follows (hlawful.follows clock) (by simp)
  exact Bool.noConfusion (hcalm.isTripped.symm.trans (hlawful.trips clock htripped))

theorem elapsed {clock : Clock} (h : clock.Calm) (milliseconds : Nat) :
    (Clock.wait true milliseconds clock).waitEnd = .elapsed := by
  have htripped := h.waitEnd_ne_tripped (Clock.lawful_wait true milliseconds)
  have hgivenUp : (Clock.wait true milliseconds clock).waitEnd ≠ .givenUp :=
    Clock.wait_ne_givenUp h.deadline
  cases hend : (Clock.wait true milliseconds clock).waitEnd with
  | elapsed => rfl
  | tripped => exact absurd hend htripped
  | givenUp => exact absurd hend hgivenUp

end Clock.Calm

/-- A pause that nobody uses to stop the loop, and that comes to an end. What a source logs is not
what dispatches log. -/
def Pause.IsQuiet : Pause → Prop
  | .wait _ => True
  | .forever => False
  | .signal sent => sent = .carryOn
  | .log record => record.isOfDispatch = false

def Fetch.IsQuiet (fetch : Fetch) : Prop := ∀ pause ∈ fetch.pauses, pause.IsQuiet

def Source.IsQuiet (source : Source) : Prop := ∀ fetch ∈ source.fetches, fetch.IsQuiet

namespace Listening

open ChatDispatch.Action

/-- Nobody stops the loop from the start or later by a timer, and nobody gives up waiting for it. -/
structure Start.IsQuiet (start : Start) : Prop where
  isOff : start.isOn = false
  timers : ∀ timer ∈ start.timers, timer.signal = .carryOn
  patience : start.patience = none

theorem Start.IsQuiet.calm {start : Start} (h : start.IsQuiet) (now : Nat) :
    (start.clock now).Calm where
  deadline := by rw [Start.clock, h.patience]; rfl
  switch := by rw [Start.clock, h.isOff]
  timers := by
    intro timer hmem
    obtain ⟨original, horiginal, rfl⟩ := List.mem_map.mp (List.mem_mergeSort.mp hmem)
    exact h.timers original horiginal

structure Undisturbed (p : Processor) (run : Run Bool) : Prop where
  ending : run.ending = .returned false
  waits : p.Waits run.journal run.after
  calm : run.after.clock.Calm
  steps : steps run.journal = []

namespace Undisturbed

theorem refl {p : Processor} (h : p.clock.Calm) : Undisturbed p ⟨.returned false, p, []⟩ :=
  ⟨rfl, .refl p, h, rfl⟩

theorem after {p q : Processor} {first : List Entry} {run : Run Bool} (hwaits : p.Waits first q)
    (hsteps : ChatDispatch.steps first = []) (h : Undisturbed q run) :
    Undisturbed p ⟨run.ending, run.after, first ++ run.journal⟩ where
  ending := h.ending
  waits := hwaits.trans h.waits
  calm := h.calm
  steps := by rw [steps_append, hsteps, h.steps, List.append_nil]

end Undisturbed

theorem watch_of_calm {p : Processor} (h : p.clock.Calm) (milliseconds : Nat) :
    watch (Clock.wait true milliseconds) p =
      ⟨.returned false, { p with clock := (Clock.wait true milliseconds p.clock).clock },
        (Clock.wait true milliseconds p.clock).delivered.map .expired⟩ := by
  have hpass := Processor.pass_apply (Clock.wait true milliseconds) p
  unfold watch
  rw [state_bind, h.isTripped, if_neg Bool.false_ne_true,
    bind_of_returned (congrArg Run.ending hpass), hpass, h.elapsed]
  exact congrArg (Run.mk _ _) (List.append_nil _)

theorem watch_undisturbed {p : Processor} (h : p.clock.Calm) (milliseconds : Nat) :
    Undisturbed p (watch (Clock.wait true milliseconds) p) := by
  have hlawful := Clock.lawful_wait true milliseconds
  have hcalm : (Clock.wait true milliseconds p.clock).clock.Calm :=
    h.follows (hlawful.follows p.clock) (by simp)
  have hwaits := (watch_idle hlawful p).1
  rw [watch_of_calm h] at hwaits ⊢
  refine ⟨rfl, hwaits, hcalm, steps_eq_nil ?_⟩
  intro entry hmem
  obtain ⟨timer, _, rfl⟩ := List.mem_map.mp hmem
  rfl

theorem passPauses_undisturbed {pauses : List Pause} (hquiet : ∀ pause ∈ pauses, pause.IsQuiet)
    {p : Processor} (h : p.clock.Calm) : Undisturbed p (passPauses pauses p) := by
  induction pauses using passPauses.induct generalizing p with
  | case1 => exact .refl h
  | case2 sent pauses ih =>
    obtain ⟨hsent, hrest⟩ := List.forall_mem_cons.mp hquiet
    obtain rfl : sent = .carryOn := hsent
    have hcalm := h.follows (Tracks.signal .carryOn p) fun sent hmem => by
      simpa using List.mem_singleton.mp hmem
    exact .after (Idle.signal .carryOn p).1 rfl (ih hrest hcalm)
  | case3 record pauses ih =>
    obtain ⟨hrecord, hrest⟩ := List.forall_mem_cons.mp hquiet
    have hsteps : steps [.logged record] = [] :=
      steps_eq_nil (List.forall_mem_singleton.mpr hrecord)
    exact .after (Idle.log record p).1 hsteps (ih hrest h)
  | case4 pauses ih => exact ih (List.forall_mem_cons.mp hquiet).2 h
  | case5 milliseconds pauses hpos ih =>
    have hwatch := watch_undisturbed h milliseconds
    have hrest := ih (List.forall_mem_cons.mp hquiet).2 hwatch.calm
    rw [passPauses]
    · rw [bind_of_returned hwatch.ending]
      exact .after hwatch.waits hwatch.steps hrest
    · exact hpos
  | case6 pauses => exact (hquiet .forever List.mem_cons_self).elim

theorem retryWait_undisturbed (favoured : Bool) (milliseconds : Nat) {p : Processor}
    (h : p.clock.Calm) : Undisturbed p (retryWait favoured milliseconds p) := by
  unfold retryWait
  split
  · change Undisturbed p ⟨.returned (p.clock.switch.isTripped && !favoured), p, []⟩
    rw [h.isTripped, Bool.false_and]
    exact .refl h
  · exact watch_undisturbed h milliseconds

/-- A quiet fetch at a calm clock is answered. -/
theorem ask_of_calm (favoured : Bool) {fetch : Fetch} (hquiet : fetch.IsQuiet) {p : Processor}
    (h : p.clock.Calm) :
    ∃ q journal, ask favoured fetch p = ⟨.returned (some fetch.answer), q, .asked :: journal⟩ ∧
      p.Waits journal q ∧ q.clock.Calm ∧ steps journal = [] := by
  obtain ⟨hpauses, hwaits, hcalm, hsteps⟩ := passPauses_undisturbed hquiet h
  have hoff : p.clock.switch.isOn = false := by rw [h.switch]
  have hanswer : answerOf favoured fetch p =
      ⟨.returned (some fetch.answer), (passPauses fetch.pauses p).after,
        (passPauses fetch.pauses p).journal⟩ := by
    rw [answerOf_apply, h.isTripped, Bool.false_and, Bool.false_and, if_neg Bool.false_ne_true,
      bind_of_returned hpauses]
    exact congrArg (Run.mk _ _) (List.append_nil _)
  refine ⟨_, _, ?_, hwaits, hcalm, hsteps⟩
  rw [ask_of_isOff hoff, enter_bind, bind_of_returned (congrArg Run.ending hanswer), hanswer]
  exact congrArg (fun journal => Run.mk _ _ (.asked :: journal)) (List.append_nil _)

end Listening

end ChatDispatch
