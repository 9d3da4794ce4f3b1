import ChatDispatch.Proofs.Listening.Signals

/-!
A dispatch of a batch is the dispatches of its messages, one after the other. Updates without a
fresh message have an outcome and nothing else, and where a batch is cut makes no difference.
Dispatches do not look at the clock: from two states that differ only in their clocks a dispatch
does the same and comes to the same end, and the states that it leaves differ only in their clocks;
what expires meanwhile may differ. A clock at which nobody gives up does not keep a dispatch from
returning.
-/

namespace ChatDispatch

def Entry.isAct (entry : Entry) : Bool := entry.isStep || entry matches .signalled _

def acts (journal : List Entry) : List Entry := journal.filter Entry.isAct

theorem acts_append (first second : List Entry) :
    acts (first ++ second) = acts first ++ acts second :=
  List.filter_append ..

theorem acts_map_expired (timers : List Timer) : acts (timers.map .expired) = [] := by
  apply List.filter_eq_nil_iff.mpr
  intro entry hmem
  obtain ⟨timer, _, rfl⟩ := List.mem_map.mp hmem
  exact Bool.false_ne_true

/-- The second run is the first one at another time, and nobody gives up waiting for it. -/
structure Run.Agrees {α : Type} (run other : Run α) : Prop where
  ending : other.ending = run.ending
  after : other.after = { run.after with clock := other.after.clock }
  deadline : other.after.clock.deadline = none
  acts : ChatDispatch.acts other.journal = ChatDispatch.acts run.journal

/-- At a clock at which nobody gives up, an action does what it does at any other clock. -/
def Action.Timeless (α : Type) (action : Action α) : Prop :=
  ∀ p clock, clock.deadline = none → (action p).ending ≠ .hung →
    (action p).Agrees (action { p with clock })

namespace Action

variable {α β : Type}

theorem Timeless.bind {action : Action α} {next : α → Action β} (ha : Timeless α action)
    (hn : ∀ value, Timeless β (next value)) : Timeless β (action >>= next) := by
  intro p clock hclock hhung
  cases hend : (action p).ending with
  | returned value =>
    have h := ha p clock hclock (by simp [hend])
    rw [bind_of_returned hend] at hhung ⊢
    rw [bind_of_returned (h.ending.trans hend), h.after]
    have h' := hn value (action p).after (action { p with clock }).after.clock h.deadline hhung
    refine ⟨h'.ending, h'.after, h'.deadline, ?_⟩
    rw [acts_append, acts_append, h.acts, h'.acts]
  | panicked panic =>
    have h := ha p clock hclock (by simp [hend])
    rw [bind_of_panicked hend, bind_of_panicked (h.ending.trans hend)]
    exact ⟨rfl, h.after, h.deadline, h.acts⟩
  | hung =>
    rw [bind_of_hung hend] at hhung
    exact absurd rfl hhung

theorem Timeless.still {action : Action α} (h : ∀ p clock,
    action { p with clock } = ⟨(action p).ending, { (action p).after with clock },
      (action p).journal⟩) : Timeless α action := by
  intro p clock hclock _
  rw [h p clock]
  exact ⟨rfl, rfl, hclock, rfl⟩

/-- The steps of dispatches do not look at the clock; a sleep returns unless somebody gives up. -/
theorem closed_timeless (depth : Nat) : Closed depth Timeless where
  pure _ := Timeless.still fun _ _ => rfl
  bind ha hn := ha.bind hn
  inspect hsame hn p clock hclock hhung := by
    rw [state_bind] at hhung ⊢
    rw [state_bind, hsame p clock]
    exact hn p p clock hclock hhung
  change hchange := Timeless.still fun p clock => by rw [update_apply, hchange, update_apply]
  enterAll _ := Timeless.still fun _ _ => rfl
  ofEnding _ := Timeless.still fun _ _ => rfl
  guarded {α action} ha p clock hclock hhung := by
    have hreal : (action p).ending ≠ .hung := fun h => hhung (by simp [Action.guarded, h])
    have h := ha p clock hclock hreal
    refine ⟨?_, h.after, h.deadline, h.acts⟩
    simp only [Action.guarded, h.ending]
  sleep milliseconds p clock hclock hhung := by
    rw [Processor.sleep_apply] at hhung ⊢
    rw [Processor.sleep_apply]
    have hreturned : (Clock.wait false milliseconds p.clock).waitEnd ≠ .givenUp :=
      fun h => hhung (if_pos h)
    have hother : (Clock.wait false milliseconds clock).waitEnd ≠ .givenUp :=
      Clock.wait_ne_givenUp hclock
    refine ⟨?_, rfl, ?_, ?_⟩
    · exact (if_neg hother).trans (if_neg hreturned).symm
    · exact ((Clock.lawful_wait false milliseconds).follows clock).deadline.trans hclock
    · exact (acts_map_expired _).trans (acts_map_expired _).symm
  signal sent p clock hclock _ := ⟨rfl, rfl, hclock, rfl⟩

end Action

end ChatDispatch

namespace ChatDispatch.Processor

variable {depth : Nat}

theorem dispatchBatch_eq_mapM (updates : List Update) :
    dispatchBatch depth updates = updates.mapM (dispatchUpdate depth) := by
  induction updates with
  | nil => rfl
  | cons update rest ih => rw [dispatchBatch, List.mapM_cons, ih]

/-- Two batches in one are dispatched like the one behind the other. -/
theorem dispatchBatch_append (first second : List Update) :
    dispatchBatch depth (first ++ second) = (do
      let outcomes ← dispatchBatch depth first
      let others ← dispatchBatch depth second
      return outcomes ++ others) := by
  simp only [dispatchBatch_eq_mapM, List.mapM_append]

theorem length_of_dispatchBatch {updates : List Update} {p : Processor} {outcomes : List Outcome}
    (h : (dispatchBatch depth updates p).ending = .returned outcomes) :
    outcomes.length = updates.length := by
  induction updates generalizing p outcomes with
  | nil =>
    obtain rfl : [] = outcomes := Ending.returned.inj h
    rfl
  | cons update rest ih =>
    obtain ⟨outcome, _, hrest, _⟩ := Action.exists_of_bind_returned h
    obtain ⟨others, hothers, hall, _⟩ := Action.exists_of_bind_returned hrest
    obtain rfl : outcome :: others = outcomes := Ending.returned.inj hall
    exact congrArg (· + 1) (ih hothers)

/-- The other run does what the first does, but at a clock at which nobody gives up, and returns. -/
structure Replays {α β : Type} (run : Run α) (other : Run β) : Prop where
  returned : ∃ value, other.ending = .returned value
  after : other.after = { run.after with clock := other.after.clock }
  deadline : other.after.clock.deadline = none
  acts : acts other.journal = acts run.journal

variable (depth) in
theorem dispatchUpdate_of_none {update : Update} (h : update.message? = none) (p : Processor) :
    dispatchUpdate depth update p =
      ⟨.returned (.ignored (.notAMessage update.kind)), p,
        [.taken update, .logged (.updateSkipped update.kind)]⟩ := by
  unfold dispatchUpdate
  rw [h]
  rfl

variable (depth) in
theorem dispatchUpdate_of_some {update : Update} {message : Message}
    (h : update.message? = some message) (p : Processor) :
    dispatchUpdate depth update p =
      ⟨(dispatch depth message p).ending, (dispatch depth message p).after,
        .taken update :: (dispatch depth message p).journal⟩ := by
  unfold dispatchUpdate
  rw [h]
  rfl

/-- A batch at a clock at which nobody gives up, and its messages at any clock. -/
theorem dispatchBatch_replays (updates : List Update) (p : Processor) (clock : Clock)
    (hclock : clock.deadline = none) {outcomes : List Outcome}
    (h : ((updates.filterMap Update.message?).mapM (dispatch depth) p).ending =
      .returned outcomes) :
    Replays ((updates.filterMap Update.message?).mapM (dispatch depth) p)
      (dispatchBatch depth updates { p with clock }) := by
  induction updates generalizing p clock outcomes with
  | nil => exact ⟨⟨[], rfl⟩, rfl, hclock, rfl⟩
  | cons update rest ih =>
    rw [dispatchBatch]
    cases hmessage : update.message? with
    | none =>
      rw [List.filterMap_cons_none hmessage] at h ⊢
      have hupdate := dispatchUpdate_of_none depth hmessage { p with clock }
      obtain ⟨⟨others, hothers⟩, hafter, hdeadline, hacts⟩ := ih p clock hclock h
      rw [Action.bind_of_returned (congrArg Run.ending hupdate), hupdate, Action.bind_pure_apply,
        hothers]
      exact ⟨⟨_, rfl⟩, hafter, hdeadline, (acts_append [_, _] _).trans hacts⟩
    | some message =>
      rw [List.filterMap_cons_some hmessage, List.mapM_cons] at h ⊢
      obtain ⟨outcome, houtcome, hrest, hrun⟩ := Action.exists_of_bind_returned h
      obtain ⟨others, hothers, _, _⟩ := Action.exists_of_bind_returned hrest
      -- The message is dispatched at another clock than in the sequence, which makes no difference.
      have hagrees := (Action.closed_timeless depth).dispatch depth (Nat.le_refl depth) message p
        clock hclock (by simp [houtcome])
      obtain ⟨⟨others', hothers'⟩, hafter, hdeadline, hacts⟩ := ih _ _ hagrees.deadline hothers
      rw [← hagrees.after] at hothers' hafter hdeadline hacts
      have hupdate := dispatchUpdate_of_some depth hmessage { p with clock }
      have hreturned : (dispatchUpdate depth update { p with clock }).ending = .returned outcome :=
        (congrArg Run.ending hupdate).trans (hagrees.ending.trans houtcome)
      rw [hrun, Action.bind_of_returned hreturned, hupdate, Action.bind_pure_apply,
        Action.bind_pure_apply, hothers']
      refine ⟨⟨_, rfl⟩, hafter, hdeadline, ?_⟩
      have hskip : ∀ journal, ChatDispatch.acts (.taken update :: journal) =
          ChatDispatch.acts journal := fun _ => rfl
      rw [acts_append, acts_append, hskip, hagrees.acts]
      exact congrArg _ hacts

end ChatDispatch.Processor
