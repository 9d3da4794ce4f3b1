import ChatDispatch.Proofs.Listening.Backoff
import Mathlib.Algebra.Group.Nat.Defs

/-!
The schedule of the waits after errors. The wait doubles with each error in a row, up to the limit,
and begins anew behind a batch; so it depends on nothing but the number of errors that have come
since the last batch, or since the start.
-/

namespace ChatDispatch

namespace Settings

/-- The wait after an error that so many errors in a row have come before. -/
def delay (settings : Settings) (errors : Nat) : Nat :=
  min (settings.backoffInitial * 2 ^ errors) settings.backoffMax

variable {settings : Settings}

theorem delay_zero (h : settings.backoffInitial ≤ settings.backoffMax) :
    settings.delay 0 = settings.backoffInitial := by
  rw [delay, Nat.pow_zero, Nat.mul_one, Nat.min_eq_left h]

theorem delay_le (settings : Settings) (errors : Nat) :
    settings.delay errors ≤ settings.backoffMax :=
  Nat.min_le_right _ _

theorem delay_mono {errors more : Nat} (h : errors ≤ more) :
    settings.delay errors ≤ settings.delay more := by
  have hpow : 2 ^ errors ≤ 2 ^ more := Nat.pow_le_pow_right Nat.two_pos h
  have hgrown := Nat.mul_le_mul_left settings.backoffInitial hpow
  unfold delay
  omega

end Settings

/-- The wait is capped after it has been doubled; that keeps to the schedule. -/
theorem Listening.nextBackoff_delay (settings : Settings) (errors : Nat) :
    nextBackoff settings (settings.delay errors) = settings.delay (errors + 1) := by
  unfold nextBackoff Settings.delay
  rw [Nat.pow_succ, ← Nat.mul_assoc]
  omega

/-- The engagements of a loop keep to the schedule, so many errors in a row having come before. -/
inductive OnSchedule (settings : Settings) : Nat → List LogRecord → Prop
  | nil {errors : Nat} : OnSchedule settings errors []
  | failed {errors : Nat} {error : String} {rest : List LogRecord}
      (hrest : OnSchedule settings (errors + 1) rest) :
      OnSchedule settings errors (.fetchFailed error (settings.delay errors) :: rest)
  | dispatched {errors count : Nat} {rest : List LogRecord} (hrest : OnSchedule settings 0 rest) :
      OnSchedule settings errors (.batchReceived count :: rest)

def streak (errors : Nat) (records : List LogRecord) : Nat :=
  records.foldl (fun errors record => if record.wait?.isSome then errors + 1 else 0) errors

@[simp]
theorem streak_nil (errors : Nat) : streak errors [] = errors := rfl

@[simp]
theorem streak_failed (errors : Nat) (error : String) (wait : Nat) (records : List LogRecord) :
    streak errors (.fetchFailed error wait :: records) = streak (errors + 1) records := rfl

@[simp]
theorem streak_dispatched (errors count : Nat) (records : List LogRecord) :
    streak errors (.batchReceived count :: records) = streak 0 records := rfl

theorem streak_append (errors : Nat) (first second : List LogRecord) :
    streak errors (first ++ second) = streak (streak errors first) second :=
  List.foldl_append

/-- A streak goes on as long as nothing but errors comes. -/
theorem streak_of_errors {records : List LogRecord}
    (h : ∀ record ∈ records, record.wait?.isSome = true) (errors : Nat) :
    streak errors records = errors + records.length := by
  induction records generalizing errors with
  | nil => rfl
  | cons record rest ih =>
    obtain ⟨hrecord, hrest⟩ := List.forall_mem_cons.mp h
    have hfirst : streak errors (record :: rest) = streak (errors + 1) rest := by
      unfold streak
      rw [List.foldl_cons, if_pos hrecord]
    rw [hfirst, ih hrest, List.length_cons]
    omega

namespace OnSchedule

variable {settings : Settings} {errors : Nat} {records : List LogRecord}

/-- The wait behind some engagements is that of their streak. -/
theorem wait_eq (h : OnSchedule settings errors records) {before after : List LogRecord}
    {error : String} {wait : Nat} (hsplit : records = before ++ .fetchFailed error wait :: after) :
    wait = settings.delay (streak errors before) := by
  induction before generalizing errors records with
  | nil =>
    subst hsplit
    cases h
    rw [streak_nil]
  | cons record before ih =>
    subst hsplit
    cases h with
    | failed hrest =>
      rw [streak_failed]
      exact ih hrest rfl
    | dispatched hrest =>
      rw [streak_dispatched]
      exact ih hrest rfl

theorem wait_le (h : OnSchedule settings errors records) :
    ∀ wait ∈ records.filterMap LogRecord.wait?, wait ≤ settings.backoffMax := by
  induction h with
  | nil => simp
  | failed hrest ih => exact List.forall_mem_cons.mpr ⟨settings.delay_le _, ih⟩
  | dispatched hrest ih => exact ih

/-- Waits of one streak do not get shorter. -/
theorem wait_mono (h : OnSchedule settings errors records) {before middle after : List LogRecord}
    {error later : String} {wait next : Nat}
    (hsplit : records =
      before ++ .fetchFailed error wait :: (middle ++ .fetchFailed later next :: after))
    (hmiddle : ∀ record ∈ middle, record.wait?.isSome = true) : wait ≤ next := by
  have hnext : records = (before ++ .fetchFailed error wait :: middle) ++
      .fetchFailed later next :: after := by simp [hsplit]
  rw [h.wait_eq hsplit, h.wait_eq hnext, streak_append, streak_failed, streak_of_errors hmiddle]
  exact Settings.delay_mono (by omega)

end OnSchedule

namespace Listening

open ChatDispatch.Action

section Run

variable (depth : Nat) (favour : Favour) (name : String)

/-- Whatever becomes of a run, it keeps to the schedule if the wait that stands next does. -/
theorem onSchedule_listenFrom (turn errors : Nat) (fetches : List Fetch) (p : Processor)
    (hfit : p.settings.backoffInitial ≤ p.settings.backoffMax) :
    OnSchedule p.settings errors (engagements
      (listenFrom depth favour name turn (p.settings.delay errors) fetches p).journal) := by
  refine listenFrom_induction (motive := fun _ backoff _ p run => ∀ errors,
    p.settings.backoffInitial ≤ p.settings.backoffMax → backoff = p.settings.delay errors →
      OnSchedule p.settings errors (engagements run.journal))
    ?_ ?_ turn _ fetches p errors hfit rfl
  · intro turn backoff fetches p hlast errors hfit hbackoff
    obtain ⟨-, hpaced⟩ := takeTurn_paced depth favour name turn backoff (nextFetch fetches) p
    unfold Run.asLast
    generalize engagements _ = records at hpaced
    cases hpaced with
    | stopped => exact .nil
    | dispatched count => exact .dispatched .nil
    | waited error =>
      subst hbackoff
      exact .failed .nil
  · intro turn backoff fetch rest p next hnext ih errors hfit hbackoff
    obtain ⟨hafter, hpaced⟩ := takeTurn_paced depth favour name turn backoff fetch p
    rw [hafter] at ih
    unfold Run.andThen
    rw [engagements_append _ (head?_listenFrom_ne_engaged _ _ _ _ _ _ _)]
    generalize engagements (takeTurn depth favour name turn backoff fetch p).journal =
      records at hpaced
    cases hpaced with
    | stopped hlast => exact absurd hnext (hlast next)
    | dispatched count hreset =>
      exact .dispatched (ih 0 hfit ((hreset next hnext).trans (Settings.delay_zero hfit).symm))
    | waited error hdoubled =>
      subst hbackoff
      exact .failed (ih (errors + 1) hfit
        ((hdoubled next hnext).trans (nextBackoff_delay p.settings errors)))

/-- So does a loop from its start on. -/
theorem onSchedule_listen (start : Start) (source : Source) (p : Processor)
    (hfit : p.settings.backoffInitial ≤ p.settings.backoffMax) :
    OnSchedule p.settings 0 (engagements (listen depth favour start source p).journal) := by
  have hrun := onSchedule_listenFrom depth favour source.name 0 0 source.fetches
    (started start p) hfit
  have hzero : (started start p).settings.delay 0 = p.settings.backoffInitial :=
    Settings.delay_zero hfit
  rw [hzero] at hrun
  rw [listen_apply]
  dsimp only
  rw [← List.singleton_append, engagements_append _ (head?_listenFrom_ne_engaged _ _ _ _ _ _ _)]
  exact hrun

/-- A loop whose initial wait is within the limit never waits longer after an error. -/
theorem retryWaits_listen_le (start : Start) (source : Source) (p : Processor)
    (hfit : p.settings.backoffInitial ≤ p.settings.backoffMax) :
    ∀ wait ∈ retryWaits (listen depth favour start source p).journal,
      wait ≤ p.settings.backoffMax :=
  (onSchedule_listen depth favour start source p hfit).wait_le

end Run

end Listening

end ChatDispatch
