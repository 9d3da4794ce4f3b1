import ChatDispatch.Listening.Loop
import ChatDispatch.Proofs.Dispatch.Closure

/-!
The journal tells what the switch has been through: the signals that arrived, sent or due, in their
order. The state of a switch is the fold of those signals, whoever let time pass while they
arrived, so it depends on the last signal before nobody could turn the switch any more.
-/

namespace ChatDispatch

def arrivals (journal : List Entry) : List Signal :=
  journal.filterMap fun entry =>
    match entry with
    | .signalled signal => some signal
    | .expired timer => some timer.signal
    | _ => none

def expiries (journal : List Entry) : List Timer :=
  journal.filterMap fun entry =>
    match entry with
    | .expired timer => some timer
    | _ => none

theorem arrivals_append (first second : List Entry) :
    arrivals (first ++ second) = arrivals first ++ arrivals second :=
  List.filterMap_append

theorem expiries_append (first second : List Entry) :
    expiries (first ++ second) = expiries first ++ expiries second :=
  List.filterMap_append

theorem arrivals_eq_nil {journal : List Entry} (h : ∀ entry ∈ journal, entry.isSignal = false) :
    arrivals journal = [] := by
  apply List.filterMap_eq_nil_iff.mpr
  intro entry hmem
  have hentry := h entry hmem
  cases entry <;> simp_all [Entry.isSignal]

theorem expiries_eq_nil {journal : List Entry} (h : ∀ entry ∈ journal, entry.isSignal = false) :
    expiries journal = [] := by
  apply List.filterMap_eq_nil_iff.mpr
  intro entry hmem
  have hentry := h entry hmem
  cases entry <;> simp_all [Entry.isSignal]

namespace Switch

def sendAll (switch : Switch) (signals : List Signal) : Switch := signals.foldl send switch

theorem sendAll_append (switch : Switch) (first second : List Signal) :
    switch.sendAll (first ++ second) = (switch.sendAll first).sendAll second :=
  List.foldl_append

theorem isTripped_of_isClosed {switch : Switch} (h : switch.isClosed = true) :
    switch.isTripped = true :=
  Bool.or_eq_true_iff.mpr (.inr h)

theorem send_of_isClosed {switch : Switch} (h : switch.isClosed = true) (signal : Signal) :
    switch.send signal = switch := by
  unfold send
  rw [if_pos h]

theorem sendAll_of_isClosed {switch : Switch} (h : switch.isClosed = true)
    (signals : List Signal) : switch.sendAll signals = switch := by
  induction signals with
  | nil => rfl
  | cons signal rest ih =>
    rw [sendAll, List.foldl_cons, send_of_isClosed h]
    exact ih

/-- Signals to carry on leave a switch off that is off. -/
theorem sendAll_of_carryOn {switch : Switch} {signals : List Signal}
    (hoff : switch.isOn = false) (h : ∀ signal ∈ signals, signal = .carryOn) :
    switch.sendAll signals = switch := by
  induction signals with
  | nil => rfl
  | cons signal rest ih =>
    obtain rfl := h signal (List.mem_cons_self ..)
    have hsend : switch.send .carryOn = switch := by
      obtain ⟨isOn, isClosed⟩ := switch
      cases hoff
      cases isClosed <;> rfl
    rw [sendAll, List.foldl_cons, hsend]
    exact ih fun signal hmem => h signal (List.mem_cons_of_mem _ hmem)

end Switch

/-- The last of some signals before the first that says that no more will come. -/
def lastSignal? (signals : List Signal) : Option Signal :=
  (signals.takeWhile (· ≠ .hangUp)).getLast?

theorem lastSignal?_cons {signal : Signal} (h : signal ≠ .hangUp) (rest : List Signal) :
    lastSignal? (signal :: rest) = some ((lastSignal? rest).getD signal) := by
  unfold lastSignal?
  rw [List.takeWhile_cons_of_pos (by simpa using h), List.getLast?_cons]

/-- An open switch is left on if the last signal that could turn it says stop, and closed if one
said that no more will come. -/
theorem Switch.sendAll_open (signals : List Signal) (isOn : Bool) :
    Switch.sendAll ⟨isOn, false⟩ signals =
      ⟨((lastSignal? signals).map fun signal => decide (signal = .stop)).getD isOn,
        decide (.hangUp ∈ signals)⟩ := by
  induction signals generalizing isOn with
  | nil => rfl
  | cons signal rest ih =>
    rw [sendAll, List.foldl_cons]
    cases signal with
    | stop =>
      refine (ih true).trans ?_
      rw [lastSignal?_cons (by decide)]
      cases lastSignal? rest <;> simp
    | carryOn =>
      refine (ih false).trans ?_
      rw [lastSignal?_cons (by decide)]
      cases lastSignal? rest <;> simp
    | hangUp =>
      have hclosed : (Switch.send ⟨isOn, false⟩ .hangUp).isClosed = true := rfl
      refine (sendAll_of_isClosed hclosed rest).trans ?_
      simp [lastSignal?, send]

namespace Clock

/-- What a journal says of the clock before and after it: the timers that expired are gone from the
front of those that wait, and the switch has been sent what arrived. -/
structure Follows (before : Clock) (journal : List Entry) (after : Clock) : Prop where
  switch : after.switch = before.switch.sendAll (arrivals journal)
  timers : before.timers = expiries journal ++ after.timers
  deadline : after.deadline = before.deadline

namespace Follows

theorem refl (clock : Clock) : clock.Follows [] clock := ⟨rfl, rfl, rfl⟩

theorem trans {a b c : Clock} {first second : List Entry} (h : a.Follows first b)
    (h' : b.Follows second c) : a.Follows (first ++ second) c where
  switch := by rw [h'.switch, h.switch, arrivals_append, Switch.sendAll_append]
  timers := by rw [h.timers, h'.timers, expiries_append, List.append_assoc]
  deadline := h'.deadline.trans h.deadline

theorem of_silent {clock : Clock} {journal : List Entry}
    (h : ∀ entry ∈ journal, entry.isSignal = false) : clock.Follows journal clock where
  switch := by rw [arrivals_eq_nil h]; rfl
  timers := by rw [expiries_eq_nil h]; rfl
  deadline := rfl

theorem cons {a b : Clock} {entry : Entry} {journal : List Entry}
    (hentry : entry.isSignal = false) (h : a.Follows journal b) : a.Follows (entry :: journal) b :=
  (of_silent (List.forall_mem_singleton.mpr hentry)).trans h

theorem withNow {a b : Clock} {journal : List Entry} (h : a.Follows journal b) (now : Nat) :
    a.Follows journal { b with now } :=
  ⟨h.switch, h.timers, h.deadline⟩

/-- A wait that delivers one more timer. -/
theorem cons_expired {clock after : Clock} {timer : Timer} {rest delivered : List Timer}
    (h : (clock.receive timer rest).Follows (delivered.map .expired) after) :
    Follows { clock with timers := timer :: rest } ((timer :: delivered).map .expired) after where
  switch := h.switch
  timers := congrArg (timer :: ·) h.timers
  deadline := h.deadline

end Follows

theorem deliver_follows (watches : Bool) (moment : Nat) (clock : Clock) (timers : List Timer) :
    Follows { clock with timers } ((deliver watches moment clock timers).delivered.map .expired)
      (deliver watches moment clock timers).clock := by
  induction timers generalizing clock with
  | nil => exact Follows.refl _
  | cons timer rest ih =>
    simp only [deliver]
    split
    · split
      · exact @Follows.cons_expired clock _ timer rest [] (Follows.refl _)
      · exact Follows.cons_expired (ih (clock.receive timer rest))
    · exact Follows.refl _

/-- Only a wait that watches the switch is tripped, and then by the switch as it is left. -/
theorem switch_of_deliver_tripped {watches : Bool} {moment : Nat} {clock : Clock}
    {timers : List Timer} (h : (deliver watches moment clock timers).isTripped = true) :
    watches = true ∧ (deliver watches moment clock timers).clock.switch.isTripped = true := by
  induction timers generalizing clock with
  | nil => cases h
  | cons timer rest ih =>
    simp only [deliver] at h ⊢
    split at h
    next hdue =>
      split at h
      next htrip =>
        rw [if_pos hdue, if_pos htrip]
        simp only [Bool.and_eq_true] at htrip
        exact ⟨htrip.1.1, htrip.2⟩
      next htrip =>
        rw [if_pos hdue, if_neg htrip]
        exact ih h
    · cases h

/-- A way of waiting leaves the clock that its timers make, and is tripped by nothing but the
switch. -/
structure Lawful (wait : Clock → Waited) : Prop where
  follows : ∀ clock : Clock,
    clock.Follows ((wait clock).delivered.map .expired) (wait clock).clock
  trips : ∀ clock : Clock,
    (wait clock).waitEnd = .tripped → (wait clock).clock.switch.isTripped = true

theorem waited_follows {before : Clock} {delivery : Delivery}
    (h : before.Follows (delivery.delivered.map .expired) delivery.clock) (limit : Nat)
    (waitEnd : WaitEnd) :
    before.Follows ((delivery.waited limit waitEnd).delivered.map .expired)
      (delivery.waited limit waitEnd).clock := by
  unfold Delivery.waited
  split
  · exact h
  · exact h.withNow limit

theorem waited_trips {delivery : Delivery} {limit : Nat} {waitEnd : WaitEnd}
    (h : delivery.isTripped = true → delivery.clock.switch.isTripped = true)
    (hend : waitEnd ≠ .tripped) (htripped : (delivery.waited limit waitEnd).waitEnd = .tripped) :
    (delivery.waited limit waitEnd).clock.switch.isTripped = true := by
  unfold Delivery.waited at htripped ⊢
  split
  next hdelivery => exact h hdelivery
  next hdelivery =>
    rw [if_neg hdelivery] at htripped
    exact absurd htripped hend

theorem lawful_wait (watches : Bool) (milliseconds : Nat) :
    Lawful (Clock.wait watches milliseconds) where
  follows clock := waited_follows (deliver_follows _ _ clock clock.timers) _ _
  trips clock := by
    refine waited_trips (fun h => (switch_of_deliver_tripped h).2) ?_
    split
    · exact nofun
    · exact nofun

/-- Nobody gives up a wait at a clock without a deadline. -/
theorem wait_of_deadline {watches : Bool} {milliseconds : Nat} {clock : Clock}
    (h : clock.deadline = none) :
    Clock.wait watches milliseconds clock =
      (deliver watches (clock.now + milliseconds) clock clock.timers).waited
        (clock.now + milliseconds) .elapsed := by
  unfold wait
  rw [h]
  dsimp only [Option.map_none, Option.getD_none]
  rw [if_neg (Nat.lt_irrefl _)]

theorem wait_ne_givenUp {watches : Bool} {milliseconds : Nat} {clock : Clock}
    (h : clock.deadline = none) :
    (Clock.wait watches milliseconds clock).waitEnd ≠ .givenUp := by
  rw [wait_of_deadline h]
  unfold Delivery.waited
  split
  · exact nofun
  · exact nofun

theorem lawful_waitForever : Lawful waitForever where
  follows clock := by
    unfold waitForever
    split
    · exact waited_follows (deliver_follows _ _ clock clock.timers) _ _
    · exact waited_follows (deliver_follows _ _ clock clock.timers) _ _
  trips clock := by
    unfold waitForever
    split
    · exact waited_trips (fun h => (switch_of_deliver_tripped h).2) nofun
    · exact waited_trips (fun h => (switch_of_deliver_tripped h).2) nofun

end Clock

def Action.Tracks (α : Type) (action : Action α) : Prop :=
  ∀ p : Processor, p.clock.Follows (action p).journal (action p).after.clock

namespace Action

variable {α β : Type}

theorem Tracks.bind {action : Action α} {next : α → Action β} (ha : Tracks α action)
    (hn : ∀ value, Tracks β (next value)) : Tracks β (action >>= next) := by
  intro p
  rcases bind_cases action next p with ⟨value, _, hrun⟩ | ⟨_, hafter, hjournal⟩
  · rw [hrun]
    exact (ha p).trans (hn value _)
  · rw [hafter, hjournal]
    exact ha p

theorem Tracks.pass {wait : Clock → Clock.Waited} (h : Clock.Lawful wait) :
    Tracks _ (Processor.pass wait) := by
  intro p
  rw [Processor.pass_apply]
  exact h.follows p.clock

theorem Tracks.signal (sent : Signal) : Tracks _ (Processor.signal sent) :=
  fun _ => ⟨rfl, rfl, rfl⟩

/-- The steps of dispatches do to the clock what the journal says. -/
theorem closed_tracks (depth : Nat) : Closed depth Tracks where
  pure _ p := Clock.Follows.refl p.clock
  bind ha hn := ha.bind hn
  inspect _ hn p := hn p p
  change {change} hclock p := by
    have h : (change p).clock = p.clock := (congrArg Processor.clock (hclock p p.clock) :)
    rw [update_apply, h]
    exact Clock.Follows.refl _
  enterAll he p := Clock.Follows.of_silent fun entry hmem => by
    have hstep := (he entry hmem).1
    cases entry <;> first | rfl | cases hstep
  ofEnding _ p := Clock.Follows.refl p.clock
  guarded ha := ha
  sleep milliseconds := by
    refine (Tracks.pass (Clock.lawful_wait false milliseconds)).bind fun waitEnd => ?_
    split
    · exact fun p => Clock.Follows.refl p.clock
    · exact fun p => Clock.Follows.refl p.clock
  signal := Tracks.signal

end Action

end ChatDispatch
