import ChatDispatch.Proofs.Listening.Signals

/-!
What the loop does between dispatches: it fetches and it waits. Of the state this changes only the
clock, and the journal holds nothing but records, signals and timers. A fetch that is begun ends
with the answer of the source, is cut off by the switch, or is never seen to end.
-/

namespace ChatDispatch

def Entry.isOfWait : Entry → Bool
  | .logged _ | .signalled _ | .expired _ => true
  | _ => false

structure Processor.Waits (before : Processor) (journal : List Entry) (after : Processor) :
    Prop where
  state : after = { before with clock := after.clock }
  clock : before.clock.Follows journal after.clock
  entries : ∀ entry ∈ journal, entry.isOfWait = true

namespace Processor.Waits

theorem refl (p : Processor) : p.Waits [] p :=
  ⟨rfl, Clock.Follows.refl p.clock, fun _ h => nomatch h⟩

theorem trans {p q r : Processor} {first second : List Entry} (h : p.Waits first q)
    (h' : q.Waits second r) : p.Waits (first ++ second) r where
  state := by rw [h'.state, h.state]
  clock := h.clock.trans h'.clock
  entries := by
    intro entry hmem
    rcases List.mem_append.mp hmem with hmem | hmem
    · exact h.entries entry hmem
    · exact h'.entries entry hmem

end Processor.Waits

/-- An action that fetches or waits; it never panics. -/
def Action.Idle {α : Type} (action : Action α) : Prop :=
  ∀ p, p.Waits (action p).journal (action p).after ∧
    ∀ panic, (action p).ending ≠ .panicked panic

namespace Action.Idle

variable {α β : Type}

theorem pure (value : α) : Idle (pure value : Action α) := fun p => ⟨.refl p, nofun⟩

theorem hang : Idle (hang : Action α) := fun p => ⟨.refl p, nofun⟩

theorem bind {action : Action α} {next : α → Action β} (ha : Idle action)
    (hn : ∀ value, Idle (next value)) : Idle (action >>= next) := by
  intro p
  cases hend : (action p).ending with
  | returned value =>
    rw [bind_of_returned hend]
    exact ⟨(ha p).1.trans (hn value _).1, (hn value _).2⟩
  | panicked panic => exact absurd hend ((ha p).2 panic)
  | hung =>
    rw [bind_of_hung hend]
    exact ⟨(ha p).1, nofun⟩

theorem inspect {next : Processor → Action β} (hn : ∀ p, Idle (next p)) : Idle (state >>= next) :=
  fun p => hn p p

theorem log (record : LogRecord) : Idle (log record) := by
  refine fun p => ⟨⟨rfl, .of_silent ?_, ?_⟩, nofun⟩
  · exact List.forall_mem_singleton.mpr rfl
  · exact List.forall_mem_singleton.mpr rfl

theorem signal (sent : Signal) : Idle (Processor.signal sent) :=
  fun p => ⟨⟨rfl, Tracks.signal sent p, List.forall_mem_singleton.mpr rfl⟩, nofun⟩

theorem pass {wait : Clock → Clock.Waited} (h : Clock.Lawful wait) :
    Idle (Processor.pass wait) := by
  intro p
  rw [Processor.pass_apply]
  refine ⟨⟨rfl, h.follows p.clock, ?_⟩, nofun⟩
  intro entry hmem
  obtain ⟨timer, _, rfl⟩ := List.mem_map.mp hmem
  rfl

end Action.Idle

namespace Listening

open ChatDispatch.Action

theorem isTripped_idle : Idle isTripped := Idle.inspect fun _ => Idle.pure _

theorem watch_idle {wait : Clock → Clock.Waited} (h : Clock.Lawful wait) : Idle (watch wait) := by
  refine Idle.inspect fun p => ?_
  split
  · exact Idle.pure _
  · refine (Idle.pass h).bind fun waitEnd => ?_
    cases waitEnd with
    | tripped => exact Idle.pure _
    | elapsed => exact Idle.pure _
    | givenUp => exact Idle.hang

theorem watch_of_isTripped {p : Processor} (h : p.clock.switch.isTripped = true)
    (wait : Clock → Clock.Waited) : watch wait p = ⟨.returned true, p, []⟩ := by
  unfold watch
  rw [state_bind, if_pos h]
  rfl

/-- A wait that the switch ends leaves the switch tripped. -/
theorem isTripped_of_watch {wait : Clock → Clock.Waited} (h : Clock.Lawful wait) {p : Processor}
    (htripped : (watch wait p).ending = .returned true) :
    (watch wait p).after.clock.switch.isTripped = true := by
  unfold watch at htripped ⊢
  rw [state_bind] at htripped ⊢
  split
  next hswitch => exact hswitch
  next hswitch =>
    rw [if_neg hswitch] at htripped
    have hpass : (Processor.pass wait p).ending = .returned (wait p.clock).waitEnd := by
      rw [Processor.pass_apply]
    rw [bind_of_returned hpass] at htripped ⊢
    cases hend : (wait p.clock).waitEnd with
    | tripped =>
      rw [Processor.pass_apply]
      exact h.trips p.clock hend
    | elapsed =>
      rw [hend] at htripped
      cases htripped
    | givenUp =>
      rw [hend] at htripped
      cases htripped

theorem passPauses_idle (pauses : List Pause) : Idle (passPauses pauses) := by
  induction pauses using passPauses.induct with
  | case1 => exact Idle.pure _
  | case2 sent pauses ih => exact (Idle.signal sent).bind fun _ => ih
  | case3 record pauses ih => exact (Idle.log record).bind fun _ => ih
  | case4 pauses ih => exact ih
  | case5 milliseconds pauses hpos ih =>
    rw [passPauses]
    · refine (watch_idle (Clock.lawful_wait true milliseconds)).bind fun tripped => ?_
      cases tripped with
      | true => exact Idle.pure _
      | false => exact ih
    · exact hpos
  | case6 pauses => exact watch_idle Clock.lawful_waitForever

theorem answerOf_idle (favoured : Bool) (fetch : Fetch) : Idle (answerOf favoured fetch) := by
  refine isTripped_idle.bind fun tripped => ?_
  split
  · exact Idle.pure _
  · refine (passPauses_idle fetch.pauses).bind fun stopped => ?_
    cases stopped with
    | true => exact Idle.pure _
    | false => exact Idle.pure _

theorem retryWait_idle (favoured : Bool) (milliseconds : Nat) :
    Idle (retryWait favoured milliseconds) := by
  unfold retryWait
  split
  · exact isTripped_idle.bind fun _ => Idle.pure _
  · exact watch_idle (Clock.lawful_wait true milliseconds)

theorem isTripped_of_retryWait {favoured : Bool} {milliseconds : Nat} {p : Processor}
    (h : (retryWait favoured milliseconds p).ending = .returned true) :
    (retryWait favoured milliseconds p).after.clock.switch.isTripped = true := by
  unfold retryWait at h ⊢
  split
  next hzero =>
    rw [if_pos hzero] at h
    have htripped : (p.clock.switch.isTripped && !favoured) = true := Ending.returned.inj h
    exact (Bool.and_eq_true_iff.mp htripped).1
  next hpos =>
    rw [if_neg hpos] at h
    exact isTripped_of_watch (Clock.lawful_wait true milliseconds) h

theorem answerOf_apply (favoured : Bool) (fetch : Fetch) (p : Processor) :
    answerOf favoured fetch p =
      if p.clock.switch.isTripped && fetch.isImmediate && !favoured then ⟨.returned none, p, []⟩
      else (do if ← passPauses fetch.pauses then return none else return some fetch.answer :
        Action (Option Answer)) p := by
  change (ite _ _ _ : Action (Option Answer)) p = _
  split
  · rfl
  · rfl

/-- A fetch gives no answer but that of the source. -/
theorem eq_answer_of_answerOf {favoured : Bool} {fetch : Fetch} {p : Processor} {answer : Answer}
    (h : (answerOf favoured fetch p).ending = .returned (some answer)) : answer = fetch.answer := by
  rw [answerOf_apply] at h
  split at h
  · cases h
  · cases hend : (passPauses fetch.pauses p).ending with
    | returned stopped =>
      rw [bind_of_returned hend] at h
      cases stopped with
      | true => cases h
      | false =>
        cases h
        rfl
    | panicked panic =>
      rw [bind_of_panicked hend] at h
      cases h
    | hung =>
      rw [bind_of_hung hend] at h
      cases h

/-- What comes of looking at the switch and asking the source: the loop shuts down, or the fetch is
cut off, answered, or never seen to end. -/
inductive Asked (fetch : Fetch) (p : Processor) : Run (Option Answer) → Prop
  | shut (hon : p.clock.switch.isOn = true) :
      Asked fetch p ⟨.returned none, p, [.logged .shuttingDown]⟩
  | cutOff {q : Processor} {journal : List Entry} (hoff : p.clock.switch.isOn = false)
      (hwaits : p.Waits journal q) :
      Asked fetch p ⟨.returned none, q, .asked :: journal ++ [.logged .cancelled]⟩
  | answered {q : Processor} {journal : List Entry} (hoff : p.clock.switch.isOn = false)
      (hwaits : p.Waits journal q) :
      Asked fetch p ⟨.returned (some fetch.answer), q, .asked :: journal⟩
  | hung {q : Processor} {journal : List Entry} (hoff : p.clock.switch.isOn = false)
      (hwaits : p.Waits journal q) : Asked fetch p ⟨.hung, q, .asked :: journal⟩

theorem ask_of_isOn {favoured : Bool} {fetch : Fetch} {p : Processor}
    (hon : p.clock.switch.isOn = true) :
    ask favoured fetch p = ⟨.returned none, p, [.logged .shuttingDown]⟩ := by
  change (ite _ _ _ : Action (Option Answer)) p = _
  rw [if_pos hon]
  rfl

theorem ask_of_isOff {favoured : Bool} {fetch : Fetch} {p : Processor}
    (hoff : p.clock.switch.isOn = false) :
    ask favoured fetch p = (do
      enter .asked
      let answer ← answerOf favoured fetch
      if answer.isNone then log .cancelled
      return answer : Action (Option Answer)) p := by
  change (ite _ _ _ : Action (Option Answer)) p = _
  rw [if_neg (by simp [hoff])]

theorem ask_asked (favoured : Bool) (fetch : Fetch) (p : Processor) :
    Asked fetch p (ask favoured fetch p) := by
  cases hswitch : p.clock.switch.isOn with
  | true =>
    rw [ask_of_isOn hswitch]
    exact .shut hswitch
  | false =>
    obtain ⟨hwaits, hpanic⟩ := answerOf_idle favoured fetch p
    rw [ask_of_isOff hswitch, enter_bind]
    cases hend : (answerOf favoured fetch p).ending with
    | returned answer =>
      rw [bind_of_returned hend]
      cases answer with
      | none => exact .cutOff hswitch hwaits
      | some answer =>
        obtain rfl := eq_answer_of_answerOf hend
        exact .answered hswitch (hwaits.trans (.refl _))
    | panicked panic => exact absurd hend (hpanic panic)
    | hung =>
      rw [bind_of_hung hend]
      exact .hung hswitch hwaits

end Listening

end ChatDispatch
