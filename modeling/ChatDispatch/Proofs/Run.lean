import ChatDispatch.Processor

/-!
How the run of a sequence of two actions is put together from their runs. Where the first does not
return, the second adds nothing.
-/

namespace ChatDispatch.Action

variable {α β : Type} {action : Action α} {next : α → Action β} {p : Processor}

theorem bind_of_returned {value : α} (h : (action p).ending = .returned value) :
    (action >>= next) p =
      ⟨(next value (action p).after).ending, (next value (action p).after).after,
        (action p).journal ++ (next value (action p).after).journal⟩ := by
  change Action.bind action next p = _
  simp only [Action.bind, h]

theorem bind_of_panicked {panic : Panic} (h : (action p).ending = .panicked panic) :
    (action >>= next) p = ⟨.panicked panic, (action p).after, (action p).journal⟩ := by
  change Action.bind action next p = _
  simp only [Action.bind, h]

theorem bind_of_hung (h : (action p).ending = .hung) :
    (action >>= next) p = ⟨.hung, (action p).after, (action p).journal⟩ := by
  change Action.bind action next p = _
  simp only [Action.bind, h]

/-- A sequence goes on behind an action that returns, and adds nothing to one that does not. -/
theorem bind_cases (action : Action α) (next : α → Action β) (p : Processor) :
    (∃ value, (action p).ending = .returned value ∧
      (action >>= next) p =
        ⟨(next value (action p).after).ending, (next value (action p).after).after,
          (action p).journal ++ (next value (action p).after).journal⟩) ∨
    ((∀ result, ((action >>= next) p).ending ≠ .returned result) ∧
      ((action >>= next) p).after = (action p).after ∧
      ((action >>= next) p).journal = (action p).journal) := by
  cases hend : (action p).ending with
  | returned value => exact .inl ⟨value, rfl, bind_of_returned hend⟩
  | panicked panic =>
    rw [bind_of_panicked hend]
    exact .inr ⟨nofun, rfl, rfl⟩
  | hung =>
    rw [bind_of_hung hend]
    exact .inr ⟨nofun, rfl, rfl⟩

@[simp]
theorem pure_apply (value : α) (p : Processor) :
    (pure value : Action α) p = ⟨.returned value, p, []⟩ := rfl

/-- A sequence that returns is one of two actions that return. -/
theorem exists_of_bind_returned {result : β} (h : ((action >>= next) p).ending = .returned result) :
    ∃ value, (action p).ending = .returned value ∧
      (next value (action p).after).ending = .returned result ∧
      (action >>= next) p = ⟨.returned result, (next value (action p).after).after,
        (action p).journal ++ (next value (action p).after).journal⟩ := by
  cases hend : (action p).ending with
  | returned value =>
    rw [bind_of_returned hend] at h ⊢
    exact ⟨value, rfl, h, by rw [h]⟩
  | panicked panic =>
    rw [bind_of_panicked hend] at h
    cases h
  | hung =>
    rw [bind_of_hung hend] at h
    cases h

/-- What is done to the value in the end changes nothing else. -/
theorem bind_pure_apply (f : α → β) :
    (action >>= fun value => pure (f value)) p =
      ⟨(action p).ending.map f, (action p).after, (action p).journal⟩ := by
  cases hend : (action p).ending with
  | returned value =>
    rw [bind_of_returned hend, pure_apply, List.append_nil]
    rfl
  | panicked panic => rw [bind_of_panicked hend, Ending.map]
  | hung => rw [bind_of_hung hend, Ending.map]

@[simp]
theorem update_apply (change : Processor → Processor) (p : Processor) :
    update change p = ⟨.returned (), change p, []⟩ := rfl

@[simp]
theorem ofEnding_apply (ending : Ending α) (p : Processor) :
    ofEnding ending p = ⟨ending, p, []⟩ := rfl

theorem state_bind (next : Processor → Action β) (p : Processor) :
    (state >>= next) p = next p p := rfl

theorem enter_bind (entry : Entry) (next : Unit → Action β) (p : Processor) :
    (enter entry >>= next) p =
      ⟨(next () p).ending, (next () p).after, entry :: (next () p).journal⟩ := rfl

theorem log_bind (record : LogRecord) (next : Unit → Action β) (p : Processor) :
    (log record >>= next) p =
      ⟨(next () p).ending, (next () p).after, .logged record :: (next () p).journal⟩ := rfl

end ChatDispatch.Action

namespace ChatDispatch.Processor

def serving (module : Module Program) : Processor := (scan module (new {} .memory)).after

theorem pass_apply (wait : Clock → Clock.Waited) (p : Processor) :
    pass wait p =
      ⟨.returned (wait p.clock).waitEnd, { p with clock := (wait p.clock).clock },
        (wait p.clock).delivered.map .expired⟩ := by
  change Run.mk _ _ ((wait p.clock).delivered.map Entry.expired ++ []) = _
  rw [List.append_nil]
  rfl

theorem sleep_apply (milliseconds : Nat) (p : Processor) :
    sleep milliseconds p =
      ⟨if (Clock.wait false milliseconds p.clock).waitEnd = .givenUp then .hung else .returned (),
        { p with clock := (Clock.wait false milliseconds p.clock).clock },
        (Clock.wait false milliseconds p.clock).delivered.map .expired⟩ := by
  have hpass := pass_apply (Clock.wait false milliseconds) p
  unfold sleep
  rw [Action.bind_of_returned (congrArg Run.ending hpass), hpass]
  split
  · exact congrArg (Run.mk _ _) (List.append_nil _)
  · exact congrArg (Run.mk _ _) (List.append_nil _)

end ChatDispatch.Processor
