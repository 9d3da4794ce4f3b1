import ChatDispatch.Proofs.Listening.Replay
import ChatDispatch.Proofs.Listening.Schedule

/-!
A loop that nobody cancels. After an error it waits just as long as the schedule says and asks its
source again; that changes nothing but the clock, and no observer hears of it. So the loop ends with
its source, whatever errors come on the way, unless a fetch is never answered or the dispatch of a
batch does not return.
-/

namespace ChatDispatch

/-- What a sequence of actions adds begins with what the first one adds. -/
theorem Action.journal_prefix_bind {α β : Type} (action : Action α) (next : α → Action β)
    (p : Processor) : (action p).journal <+: ((action >>= next) p).journal := by
  rcases bind_cases action next p with ⟨value, -, hrun⟩ | ⟨-, -, hjournal⟩
  · rw [hrun]
    exact List.prefix_append _ _
  · exact ⟨[], (List.append_nil _).trans hjournal.symm⟩

namespace Clock.Calm

variable {clock : Clock}

/-- A wait at a calm clock lasts as long as it is meant to. -/
theorem now_wait (h : clock.Calm) (milliseconds : Nat) :
    (Clock.wait true milliseconds clock).clock.now = clock.now + milliseconds := by
  have hend := h.elapsed milliseconds
  rw [Clock.wait_of_deadline h.deadline] at hend ⊢
  unfold Delivery.waited at hend ⊢
  split at hend
  · cases hend
  next hdelivery => rw [if_neg hdelivery]

theorem waitForever_givenUp (h : clock.Calm) : (Clock.waitForever clock).waitEnd = .givenUp := by
  have htripped := h.waitEnd_ne_tripped Clock.lawful_waitForever
  unfold Clock.waitForever at htripped ⊢
  rw [h.deadline] at htripped ⊢
  dsimp only at htripped ⊢
  unfold Delivery.waited at htripped ⊢
  split at htripped
  · exact absurd rfl htripped
  next hdelivery => rw [if_neg hdelivery]

end Clock.Calm

namespace Listening

open ChatDispatch.Action

section Calm

variable {p : Processor} (h : p.clock.Calm)

include h

theorem now_retryWait (favoured : Bool) (milliseconds : Nat) :
    (retryWait favoured milliseconds p).after.clock.now = p.clock.now + milliseconds := by
  unfold retryWait
  split
  next hzero =>
    subst hzero
    rfl
  next => rw [watch_of_calm h, h.now_wait]

theorem watch_forever_hung : (watch Clock.waitForever p).ending = .hung := by
  have hpass := Processor.pass_apply Clock.waitForever p
  unfold watch
  rw [state_bind, h.isTripped, if_neg Bool.false_ne_true,
    bind_of_returned (congrArg Run.ending hpass), h.waitForever_givenUp]
  rfl

end Calm

/-- As long as nothing but signals to carry on is sent, a fetch is cut off by nothing: its pauses
come to an end, unless one of them lasts for ever. -/
theorem passPauses_of_calm {pauses : List Pause} {p : Processor} (h : p.clock.Calm)
    (hsent : ∀ sent, .signalled sent ∈ (passPauses pauses p).journal → sent = .carryOn) :
    (passPauses pauses p).ending = .returned false ∨
      .forever ∈ pauses ∧ (passPauses pauses p).ending = .hung := by
  induction pauses using passPauses.induct generalizing p with
  | case1 => exact .inl rfl
  | case2 sent pauses ih =>
    obtain rfl : sent = .carryOn := hsent sent List.mem_cons_self
    have hcalm := h.follows (Tracks.signal .carryOn p) fun sent hmem => by
      simpa using List.mem_singleton.mp hmem
    have hrest := ih hcalm fun sent hmem => hsent sent (List.mem_cons_of_mem _ hmem)
    exact hrest.imp_right (.imp_left (List.mem_cons_of_mem _))
  | case3 record pauses ih =>
    have hrest := @ih p h fun sent hmem => hsent sent (List.mem_cons_of_mem _ hmem)
    exact hrest.imp_right (.imp_left (List.mem_cons_of_mem _))
  | case4 pauses ih =>
    have hrest := @ih p h hsent
    exact hrest.imp_right (.imp_left (List.mem_cons_of_mem _))
  | case5 milliseconds pauses hpos ih =>
    have hwatch := watch_undisturbed h milliseconds
    rw [passPauses] at hsent ⊢
    · rw [bind_of_returned hwatch.ending] at hsent ⊢
      have hrest := ih hwatch.calm fun sent hmem => hsent sent (List.mem_append_right _ hmem)
      exact hrest.imp_right (.imp_left (List.mem_cons_of_mem _))
    · exact hpos
    · exact hpos
  | case6 pauses => exact .inr ⟨List.mem_cons_self, watch_forever_hung h⟩

/-- So it is answered, unless it never is. -/
theorem answered_or_stuck {favoured : Bool} {fetch : Fetch} {p : Processor} (h : p.clock.Calm)
    (hsent : ∀ sent, .signalled sent ∈ (ask favoured fetch p).journal → sent = .carryOn) :
    ∃ q journal, p.Waits journal q ∧
      (ask favoured fetch p = ⟨.returned (some fetch.answer), q, .asked :: journal⟩ ∧
          q.clock.Calm ∨
        ask favoured fetch p = ⟨.hung, q, .asked :: journal⟩ ∧ .forever ∈ fetch.pauses) := by
  have hoff : p.clock.switch.isOn = false := by rw [h.switch]
  have hanswer : answerOf favoured fetch p = (do
      if ← passPauses fetch.pauses then return none else return some fetch.answer :
        Action (Option Answer)) p := by
    rw [answerOf_apply, h.isTripped, Bool.false_and, Bool.false_and, if_neg Bool.false_ne_true]
  have hpauses : (passPauses fetch.pauses p).journal <+: (answerOf favoured fetch p).journal := by
    rw [hanswer]
    exact journal_prefix_bind _ _ p
  have hends := passPauses_of_calm h fun sent hmem => hsent sent (by
    rw [ask_of_isOff hoff, enter_bind]
    exact List.mem_cons_of_mem _ ((hpauses.trans (journal_prefix_bind _ _ p)).subset hmem))
  have hasked := ask_asked favoured fetch p
  have hending : (ask favoured fetch p).ending = .returned (some fetch.answer) ∨
      (ask favoured fetch p).ending = .hung ∧ .forever ∈ fetch.pauses := by
    rw [ask_of_isOff hoff, enter_bind]
    rcases hends with hfalse | ⟨hforever, hhung⟩
    · have hreturned : (answerOf favoured fetch p).ending = .returned (some fetch.answer) := by
        rw [hanswer, bind_of_returned hfalse]
        rfl
      rw [bind_of_returned hreturned]
      exact .inl rfl
    · have hstuck : (answerOf favoured fetch p).ending = .hung := by
        rw [hanswer, bind_of_hung hhung]
      rw [bind_of_hung hstuck]
      exact .inr ⟨rfl, hforever⟩
  generalize ask favoured fetch p = run at hasked hending hsent
  cases hasked with
  | shut hon => cases hoff.symm.trans hon
  | cutOff hoff hwaits => rcases hending with hending | ⟨hending, -⟩ <;> cases hending
  | @answered q journal hoff hwaits =>
    have hcalm := h.follows hwaits.clock fun sent hmem => hsent sent (List.mem_cons_of_mem _ hmem)
    exact ⟨q, journal, hwaits, .inl ⟨rfl, hcalm⟩⟩
  | @hung q journal hoff hwaits =>
    rcases hending with hending | ⟨-, hforever⟩
    · cases hending
    · exact ⟨q, journal, hwaits, .inr ⟨rfl, hforever⟩⟩

/-- A turn of a loop that nobody cancels, with so many errors in a row before it, and the number of
them behind it if the loop goes on. A fetch and the wait behind an error change nothing but the
clock; that wait takes as long as the schedule says, and the loop goes on. It stops where the source
has ended, where the fetch lasts for ever, and where the dispatch of the batch does not return. -/
inductive CalmTurn (depth : Nat) (settings : Settings) (errors : Nat) (fetch : Fetch)
    (p : Processor) : Option Nat → Run (Option Nat) → Prop
  | ended {q : Processor} {journal : List Entry} (hanswer : fetch.answer = .ended)
      (hasked : p.Waits journal q) :
      CalmTurn depth settings errors fetch p none ⟨.returned none, q, .asked :: journal⟩
  | stuck {q : Processor} {journal : List Entry} (hforever : .forever ∈ fetch.pauses)
      (hasked : p.Waits journal q) :
      CalmTurn depth settings errors fetch p none ⟨.hung, q, .asked :: journal⟩
  | broken {q : Processor} {journal : List Entry} {updates : List Update}
      {ending : Ending (Option Nat)} (hanswer : fetch.answer = .batch updates)
      (hasked : p.Waits journal q)
      (hbroken : ∀ outcomes,
        (Processor.dispatchBatch depth updates q).ending ≠ .returned outcomes)
      (hending : ∀ next, ending ≠ .returned next) :
      CalmTurn depth settings errors fetch p none
        ⟨ending, (Processor.dispatchBatch depth updates q).after,
          .asked :: journal ++ .logged (.batchReceived updates.length) ::
            .engaged :: (Processor.dispatchBatch depth updates q).journal⟩
  | dispatched {q : Processor} {journal : List Entry} {updates : List Update}
      {outcomes : List Outcome} (hanswer : fetch.answer = .batch updates)
      (hasked : p.Waits journal q)
      (hreturned : (Processor.dispatchBatch depth updates q).ending = .returned outcomes) :
      CalmTurn depth settings errors fetch p (some 0)
        ⟨.returned (some (settings.delay 0)), (Processor.dispatchBatch depth updates q).after,
          .asked :: journal ++ .logged (.batchReceived updates.length) ::
            (.engaged :: (Processor.dispatchBatch depth updates q).journal ++
              [.released (Processor.dispatchBatch depth updates q).after.clock.switch])⟩
  | failed {q r : Processor} {journal waiting : List Entry} {cause : Cause}
      (hanswer : fetch.answer = .failed cause) (hasked : p.Waits journal q)
      (hwaited : q.Waits waiting r) (htime : r.clock.now = q.clock.now + settings.delay errors) :
      CalmTurn depth settings errors fetch p (some (errors + 1))
        ⟨.returned (some (settings.delay (errors + 1))), r,
          .asked :: journal ++ .logged (.fetchFailed cause.text (settings.delay errors)) ::
            (.engaged :: waiting ++ [.released r.clock.switch])⟩

inductive Persists (depth : Nat) (settings : Settings) :
    Nat → List Fetch → Processor → Run Unit → Prop
  | last {errors : Nat} {fetches : List Fetch} {p : Processor} {run : Run (Option Nat)}
      (hturn : CalmTurn depth settings errors (nextFetch fetches) p none run) :
      Persists depth settings errors fetches p run.asLast
  | more {errors following : Nat} {fetch : Fetch} {rest : List Fetch} {p : Processor}
      {run : Run (Option Nat)} {further : Run Unit}
      (hturn : CalmTurn depth settings errors fetch p (some following) run)
      (hrest : Persists depth settings following rest run.after further) :
      Persists depth settings errors (fetch :: rest) p (run.andThen further)

namespace CalmTurn

variable {depth errors following : Nat} {settings : Settings} {fetch : Fetch} {p : Processor}
  {run : Run (Option Nat)}

theorem next_of_some (h : CalmTurn depth settings errors fetch p (some following) run) :
    run.ending = .returned (some (settings.delay following)) := by
  cases h <;> rfl

theorem last_of_none (h : CalmTurn depth settings errors fetch p none run) (next : Nat) :
    run.ending ≠ .returned (some next) := by
  cases h with
  | ended => exact nofun
  | stuck => exact nofun
  | broken hanswer hasked hbroken hending => exact hending (some next)

end CalmTurn

section Turn

variable (depth : Nat) (favour : Favour) (name : String) {settings : Settings} {p : Processor}

section Answered

variable {turn errors : Nat} {fetch : Fetch} {q : Processor} {journal : List Entry}

/-- A turn that meets an error waits as long as the schedule says. -/
theorem calmTurn_of_failed {cause : Cause} (hanswer : fetch.answer = .failed cause)
    (hask : ask (favour turn) fetch p = ⟨.returned (some (.failed cause)), q, .asked :: journal⟩)
    (hwaits : p.Waits journal q) (hq : q.clock.Calm) (hsettings : q.settings = settings) :
    CalmTurn depth settings errors fetch p (some (errors + 1))
        (takeTurn depth favour name turn (settings.delay errors) fetch p) ∧
      (takeTurn depth favour name turn (settings.delay errors) fetch p).after.clock.Calm := by
  have hturn := takeTurn_of_asked depth name (settings.delay errors) hask
  have hwait := retryWait_undisturbed (favour (turn + 1)) (settings.delay errors) hq
  have hnext : nextBackoff (retryWait (favour (turn + 1)) (settings.delay errors)
      q).after.settings (settings.delay errors) = settings.delay (errors + 1) := by
    rw [hwait.waits.state, hsettings, nextBackoff_delay]
  rw [respond_of_waited hwait.ending, hnext] at hturn
  rw [hturn]
  exact ⟨.failed hanswer hwaits hwait.waits (now_retryWait hq _ _), hwait.calm⟩

/-- A turn that receives a batch begins the schedule anew, if the dispatch of the batch returns. -/
theorem calmTurn_of_batch {updates : List Update} (hanswer : fetch.answer = .batch updates)
    (hask : ask (favour turn) fetch p = ⟨.returned (some (.batch updates)), q, .asked :: journal⟩)
    (hwaits : p.Waits journal q) (hq : q.clock.Calm) (hsettings : q.settings = settings)
    (hfit : settings.backoffInitial ≤ settings.backoffMax)
    (hsent : ∀ sent, .signalled sent ∈
      (takeTurn depth favour name turn (settings.delay errors) fetch p).journal → sent = .carryOn) :
    ∃ following, CalmTurn depth settings errors fetch p following
        (takeTurn depth favour name turn (settings.delay errors) fetch p) ∧
      (following ≠ none → (takeTurn depth favour name turn (settings.delay errors)
        fetch p).after.clock.Calm) := by
  have hturn := takeTurn_of_asked depth name (settings.delay errors) hask
  obtain ⟨run, hengaged, hrespond⟩ :=
    @respond_batch depth favour name turn (settings.delay errors) q updates
  rw [hrespond] at hturn
  rw [hturn] at hsent ⊢
  cases hengaged with
  | dispatched hupdates hreturned =>
    cases hupdates
    have hinitial : (Processor.dispatchBatch depth updates q).after.settings.backoffInitial =
        settings.delay 0 := by
      rw [Processor.dispatchBatch_settings, hsettings, Settings.delay_zero hfit]
    have hafter := hq.follows (Processor.dispatchBatch_tracks depth updates q)
      fun sent hmem => hsent sent (by simp [hmem])
    rw [hinitial]
    exact ⟨some 0, .dispatched hanswer hwaits hreturned, fun _ => hafter⟩
  | broken hupdates hbroken hending =>
    cases hupdates
    exact ⟨none, .broken hanswer hwaits hbroken hending, fun h => absurd rfl h⟩
  | waited hcause => cases hcause
  | abandoned hcause => cases hcause
  | hung hcause => cases hcause

end Answered

/-- At a calm clock a turn is a calm one, and the clock stays calm. -/
theorem calmTurn_takeTurn (turn errors : Nat) (fetch : Fetch)
    (hfit : settings.backoffInitial ≤ settings.backoffMax) (hcalm : p.clock.Calm)
    (hsettings : p.settings = settings)
    (hsent : ∀ sent, .signalled sent ∈
      (takeTurn depth favour name turn (settings.delay errors) fetch p).journal → sent = .carryOn) :
    ∃ following, CalmTurn depth settings errors fetch p following
        (takeTurn depth favour name turn (settings.delay errors) fetch p) ∧
      (following ≠ none → (takeTurn depth favour name turn (settings.delay errors)
        fetch p).after.clock.Calm) := by
  have hfirst := journal_prefix_bind (ask (favour turn) fetch)
    (respond depth favour name turn (settings.delay errors)) p
  obtain ⟨q, journal, hwaits, ⟨hask, hq⟩ | ⟨hask, hforever⟩⟩ :=
    answered_or_stuck hcalm fun sent hmem => hsent sent (hfirst.subset hmem)
  · have hsame : q.settings = settings := by rw [hwaits.state, hsettings]
    cases hanswer : fetch.answer with
    | ended =>
      rw [hanswer] at hask
      rw [takeTurn_of_asked depth name (settings.delay errors) hask]
      exact ⟨none, .ended hanswer (hwaits.log (.sourceClosed name)), fun h => absurd rfl h⟩
    | failed cause =>
      rw [hanswer] at hask
      obtain ⟨hturn, hafter⟩ :=
        calmTurn_of_failed depth favour name hanswer hask hwaits hq hsame
      exact ⟨_, hturn, fun _ => hafter⟩
    | batch updates =>
      rw [hanswer] at hask
      exact calmTurn_of_batch depth favour name hanswer hask hwaits hq hsame hfit hsent
  · have hturn : takeTurn depth favour name turn (settings.delay errors) fetch p =
        ⟨.hung, q, .asked :: journal⟩ := by
      unfold takeTurn
      rw [bind_of_hung (congrArg Run.ending hask), hask]
    rw [hturn]
    exact ⟨none, .stuck hforever hwaits, fun h => absurd rfl h⟩

/-- So a run from a calm clock on goes turn by turn. -/
theorem persists_listenFrom (turn errors : Nat) (fetches : List Fetch)
    (hfit : settings.backoffInitial ≤ settings.backoffMax) (hcalm : p.clock.Calm)
    (hsettings : p.settings = settings)
    (hsent : ∀ sent, .signalled sent ∈
      (listenFrom depth favour name turn (settings.delay errors) fetches p).journal →
        sent = .carryOn) :
    Persists depth settings errors fetches p
      (listenFrom depth favour name turn (settings.delay errors) fetches p) := by
  refine listenFrom_induction (motive := fun turn backoff fetches p run => ∀ errors,
    backoff = settings.delay errors → p.clock.Calm → p.settings = settings →
      (∀ sent, .signalled sent ∈ run.journal → sent = .carryOn) →
        Persists depth settings errors fetches p run)
    ?_ ?_ turn _ fetches p errors rfl hcalm hsettings hsent
  · intro turn backoff fetches p hlast errors hbackoff hcalm hsettings hsent
    subst hbackoff
    obtain ⟨following, hturn, -⟩ :=
      calmTurn_takeTurn depth favour name turn errors (nextFetch fetches) hfit hcalm hsettings hsent
    cases following with
    | none => exact .last hturn
    | some following => exact absurd hturn.next_of_some (hlast _)
  · intro turn backoff fetch rest p next hnext ih errors hbackoff hcalm hsettings hsent
    subst hbackoff
    obtain ⟨following, hturn, hafter⟩ :=
      calmTurn_takeTurn depth favour name turn errors fetch hfit hcalm hsettings
        fun sent hmem => hsent sent (List.mem_append_left _ hmem)
    obtain ⟨hsame, -⟩ := takeTurn_paced depth favour name turn (settings.delay errors) fetch p
    cases following with
    | none => exact absurd hnext (hturn.last_of_none next)
    | some following =>
      obtain rfl : next = settings.delay following :=
        Option.some.inj (Ending.returned.inj (hnext.symm.trans hturn.next_of_some))
      exact .more hturn (ih following rfl (hafter nofun) (hsame.trans hsettings)
        fun sent hmem => hsent sent (List.mem_append_right _ hmem))

end Turn

def retriesOf (settings : Settings) (errors : Nat) : List Fetch → List Nat
  | [] => []
  | fetch :: rest =>
    match fetch.answer with
    | .ended => []
    | .batch _ => retriesOf settings 0 rest
    | .failed _ => settings.delay errors :: retriesOf settings (errors + 1) rest

/-- What keeps a loop from going on until its source has ended: a fetch that lasts for ever, or a
batch whose dispatch does not return. -/
def Breaks (depth : Nat) (fetch : Fetch) : Prop :=
  .forever ∈ fetch.pauses ∨ ∃ updates q, fetch.answer = .batch updates ∧
    ∀ outcomes, (Processor.dispatchBatch depth updates q).ending ≠ .returned outcomes

namespace CalmTurn

variable {depth errors following : Nat} {settings : Settings} {fetch : Fetch} {p : Processor}
  {run : Run (Option Nat)}

theorem ended_or_breaks (h : CalmTurn depth settings errors fetch p none run) :
    (run.ending = .returned none ∧ fetch.answer = .ended ∧ engagements run.journal = []) ∨
      (∀ next, run.ending ≠ .returned next) ∧ Breaks depth fetch := by
  cases h with
  | ended hanswer hasked =>
    refine .inl ⟨rfl, hanswer, ?_⟩
    rw [← List.append_nil (_ :: _), hasked.engagements (by simp)]
    rfl
  | stuck hforever hasked => exact .inr ⟨nofun, .inl hforever⟩
  | broken hanswer hasked hbroken hending =>
    exact .inr ⟨hending, .inr ⟨_, _, hanswer, hbroken⟩⟩

/-- The wait of the turn is the one that its answer calls for. -/
theorem retryWaits_of_some (h : CalmTurn depth settings errors fetch p (some following) run)
    (rest : List Fetch) :
    retryWaits run.journal ++ retriesOf settings following rest =
      retriesOf settings errors (fetch :: rest) := by
  cases h with
  | dispatched hanswer hasked hreturned =>
    unfold retryWaits
    rw [hasked.engagements (by simp),
      engagements_marked (Processor.dispatchBatch_isMark depth _ _) (by simp)]
    simp only [retriesOf, hanswer]
    rfl
  | failed hanswer hasked hwaited htime =>
    unfold retryWaits
    rw [hasked.engagements (by simp), engagements_marked hwaited.isMark (by simp)]
    simp only [retriesOf, hanswer]
    rfl

/-- What observers hear in a turn they hear from the dispatch of its batch. -/
theorem dispatched_of_observed {following : Option Nat}
    (h : CalmTurn depth settings errors fetch p following run) {observer : Nat} {failure : Failure}
    (hmem : .observed observer failure ∈ run.journal) :
    ∃ updates q, fetch.answer = .batch updates ∧
      .observed observer failure ∈ (Processor.dispatchBatch depth updates q).journal := by
  have hwaits : ∀ {p q : Processor} {journal : List Entry}, p.Waits journal q →
      .observed observer failure ∉ journal :=
    fun hwaits hmem => Bool.noConfusion (hwaits.entries _ hmem)
  cases h with
  | ended hanswer hasked => exact absurd hmem (by simp [hwaits hasked])
  | stuck hforever hasked => exact absurd hmem (by simp [hwaits hasked])
  | broken hanswer hasked hbroken hending =>
    exact ⟨_, _, hanswer, by simpa [hwaits hasked] using hmem⟩
  | dispatched hanswer hasked hreturned =>
    exact ⟨_, _, hanswer, by simpa [hwaits hasked] using hmem⟩
  | failed hanswer hasked hwaited htime =>
    exact absurd hmem (by simp [hwaits hasked, hwaits hwaited])

theorem head?_journal {following : Option Nat}
    (h : CalmTurn depth settings errors fetch p following run) :
    run.journal.head? = some .asked := by
  cases h <;> rfl

end CalmTurn

/-- Behind the last fetch there is none that a loop could break off at, and no batch. -/
theorem nextFetch_mem {fetches : List Fetch} (h : nextFetch fetches ≠ { answer := .ended }) :
    nextFetch fetches ∈ fetches := by
  cases fetches with
  | nil => exact absurd rfl h
  | cons fetch rest => exact List.mem_cons_self

namespace Persists

variable {depth errors : Nat} {settings : Settings} {fetches : List Fetch} {p : Processor}
  {run : Run Unit}

theorem head?_journal (h : Persists depth settings errors fetches p run) :
    run.journal.head? = some .asked := by
  cases h with
  | last hturn => exact hturn.head?_journal
  | more hturn hrest =>
    unfold Run.andThen
    rw [List.head?_append, hturn.head?_journal]
    rfl

/-- No error ends the loop. -/
theorem returned_or_breaks (h : Persists depth settings errors fetches p run) :
    run.ending = .returned () ∨ ∃ fetch ∈ fetches, Breaks depth fetch := by
  induction h with
  | last hturn =>
    rcases hturn.ended_or_breaks with ⟨hending, -, -⟩ | ⟨-, hbreaks⟩
    · exact .inl (congrArg (Ending.map fun _ => ()) hending)
    · refine .inr ⟨_, nextFetch_mem fun hnext => ?_, hbreaks⟩
      rw [hnext] at hbreaks
      rcases hbreaks with hforever | ⟨updates, q, hanswer, -⟩
      · cases hforever
      · cases hanswer
  | more hturn hrest ih =>
    rcases ih with hreturned | ⟨fetch, hmem, hbreaks⟩
    · exact .inl hreturned
    · exact .inr ⟨fetch, List.mem_cons_of_mem _ hmem, hbreaks⟩

/-- A loop that returns has waited after each error of its source. -/
theorem retryWaits_of_returned (h : Persists depth settings errors fetches p run)
    (hreturned : run.ending = .returned ()) :
    retryWaits run.journal = retriesOf settings errors fetches := by
  induction h with
  | @last errors fetches p run hturn =>
    rcases hturn.ended_or_breaks with ⟨-, hanswer, hnothing⟩ | ⟨hnever, -⟩
    · have hretries : retriesOf settings errors fetches = [] := by
        cases fetches with
        | nil => rfl
        | cons fetch rest =>
          change fetch.answer = .ended at hanswer
          rw [retriesOf, hanswer]
      rw [hretries, Run.asLast, retryWaits, hnothing]
      rfl
    · obtain ⟨next, hnext, -⟩ := Ending.map_eq_returned_iff.mp hreturned
      exact absurd hnext (hnever next)
  | more hturn hrest ih =>
    have hhead := hrest.head?_journal
    rw [Run.andThen, retryWaits_append _ (by simp [hhead]), ih hreturned, hturn.retryWaits_of_some]

/-- Observers hear of nothing but dispatches. -/
theorem dispatched_of_observed (h : Persists depth settings errors fetches p run) {observer : Nat}
    {failure : Failure} (hmem : .observed observer failure ∈ run.journal) :
    ∃ fetch ∈ fetches, ∃ updates q, fetch.answer = .batch updates ∧
      .observed observer failure ∈ (Processor.dispatchBatch depth updates q).journal := by
  induction h with
  | last hturn =>
    obtain ⟨updates, q, hanswer, hdispatched⟩ := hturn.dispatched_of_observed hmem
    refine ⟨_, nextFetch_mem fun hnext => ?_, updates, q, hanswer, hdispatched⟩
    rw [hnext] at hanswer
    cases hanswer
  | more hturn hrest ih =>
    rcases List.mem_append.mp hmem with hmem | hmem
    · exact ⟨_, List.mem_cons_self, hturn.dispatched_of_observed hmem⟩
    · obtain ⟨fetch, hfetch, hfound⟩ := ih hmem
      exact ⟨fetch, List.mem_cons_of_mem _ hfetch, hfound⟩

end Persists

/-- The waits of a loop that nobody cancels, the initial wait being within the limit. The wait after
an error is the initial one, doubled as often as errors have come since the last batch or the start,
and never more than the limit; so waits of one streak do not get shorter, and behind a batch, an
empty one as well, they begin anew. A loop that returns has waited like this after each error of its
source, and it does return, unless it breaks off at a fetch that lasts for ever or a batch whose
dispatch does not return. Observers hear of dispatches only. Turn by turn, the loop goes on after an
error, with nothing changed but the clock, by just the wait of the schedule. -/
theorem listen_retries_on_schedule (depth : Nat) (favour : Favour) {start : Start} {source : Source}
    {p : Processor} (hfit : p.settings.backoffInitial ≤ p.settings.backoffMax)
    (hstart : start.IsQuiet)
    (hsent : ∀ sent, .signalled sent ∈ (listen depth favour start source p).journal →
      sent = .carryOn) :
    let run := listen depth favour start source p
    (∀ before error wait after,
      engagements run.journal = before ++ .fetchFailed error wait :: after →
        wait = min (p.settings.backoffInitial * 2 ^ streak 0 before) p.settings.backoffMax) ∧
    (∀ before error wait middle later next after, engagements run.journal =
        before ++ .fetchFailed error wait :: (middle ++ .fetchFailed later next :: after) →
      (∀ record ∈ middle, record.wait?.isSome = true) → wait ≤ next) ∧
    (∀ wait ∈ retryWaits run.journal, wait ≤ p.settings.backoffMax) ∧
    (run.ending = .returned () ∨ ∃ fetch ∈ source.fetches, Breaks depth fetch) ∧
    (run.ending = .returned () →
      retryWaits run.journal = retriesOf p.settings 0 source.fetches) ∧
    (∀ observer failure, .observed observer failure ∈ run.journal →
      ∃ fetch ∈ source.fetches, ∃ updates q, fetch.answer = .batch updates ∧
        .observed observer failure ∈ (Processor.dispatchBatch depth updates q).journal) ∧
    ∃ journal, run.journal = .logged (.listening source.name p.settings.group) :: journal ∧
      Persists depth p.settings 0 source.fetches (started start p)
        ⟨run.ending, run.after, journal⟩ := by
  intro run
  have hschedule := onSchedule_listen depth favour start source p hfit
  have hzero : p.settings.delay 0 = p.settings.backoffInitial := Settings.delay_zero hfit
  have hlisten := listen_apply depth favour start source p
  rw [← hzero] at hlisten
  have hjournal : run.journal = .logged (.listening source.name p.settings.group) :: _ :=
    congrArg Run.journal hlisten
  have hpersists : Persists depth p.settings 0 source.fetches (started start p) _ :=
    persists_listenFrom depth favour source.name 0 0 source.fetches hfit
      (hstart.calm p.clock.now) rfl fun sent hmem => hsent sent (by
        rw [hlisten]
        exact List.mem_cons_of_mem _ hmem)
  have hending : run.ending = _ := congrArg Run.ending hlisten
  refine ⟨fun before error wait after hsplit => hschedule.wait_eq hsplit,
    fun before error wait middle later next after hsplit hmiddle =>
      hschedule.wait_mono hsplit hmiddle,
    hschedule.wait_le, ?_, ?_, ?_, _, hjournal, ?_⟩
  · rw [hending]
    exact hpersists.returned_or_breaks
  · rw [hending, hjournal, ← List.singleton_append,
      retryWaits_append _ (by simp [hpersists.head?_journal])]
    exact hpersists.retryWaits_of_returned
  · intro observer failure hmem
    rw [hjournal] at hmem
    rcases List.mem_cons.mp hmem with hmem | hmem
    · cases hmem
    · exact hpersists.dispatched_of_observed hmem
  · have hafter : run.after = _ := congrArg Run.after hlisten
    rw [hending, hafter]
    exact hpersists

def unsteady : Source where
  name := "script"
  fetches := [
    { answer := .failed ⟨"connection lost", []⟩ },
    { pauses := [.signal .carryOn], answer := .failed ⟨"connection lost", []⟩ },
    { pauses := [.wait 10], answer := .failed ⟨"timeout", []⟩ },
    { answer := .batch [] },
    { answer := .failed ⟨"connection lost", []⟩ }]

def impatient : Processor := .new { backoffInitial := 2, backoffMax := 5 } .memory

def unsteadyRun : Run Unit :=
  listen 1 (fun _ => true) { timers := [⟨3, .carryOn⟩] } unsteady impatient

/-- It ends with its source, after its waits and the ten milliseconds of the third fetch. -/
theorem unsteadyRun_course :
    unsteadyRun.ending = .returned () ∧ unsteadyRun.after.clock.now = 23 ∧
      arrivals unsteadyRun.journal = [.carryOn, .carryOn] := by
  have hclock : Start.clock { timers := [⟨3, .carryOn⟩] } 0 =
      ⟨0, none, [⟨3, .carryOn⟩], ⟨false, false⟩⟩ := by simp [Start.clock]
  have hstarted : started { timers := [⟨3, .carryOn⟩] } impatient =
      { impatient with clock := ⟨0, none, [⟨3, .carryOn⟩], ⟨false, false⟩⟩ } :=
    congrArg (fun clock => { impatient with clock }) hclock
  unfold unsteadyRun
  rw [listen_apply, hstarted]
  exact ⟨rfl, rfl, rfl⟩

/-- The third wait is cut at the limit, the one behind the batch is the initial one again, and no
observer hears of any error. -/
theorem retryWaits_unsteadyRun :
    unsteadyRun.ending = .returned () ∧ retryWaits unsteadyRun.journal = [2, 4, 5, 2] ∧
      ∀ observer failure, .observed observer failure ∉ unsteadyRun.journal := by
  obtain ⟨hreturned, -, harrivals⟩ := unsteadyRun_course
  have hstart : Start.IsQuiet { timers := [⟨3, .carryOn⟩] } :=
    ⟨rfl, List.forall_mem_singleton.mpr rfl, rfl⟩
  have hsent : ∀ sent, .signalled sent ∈ unsteadyRun.journal → sent = .carryOn := by
    intro sent hmem
    have harrived : sent ∈ arrivals unsteadyRun.journal := List.mem_filterMap.mpr ⟨_, hmem, rfl⟩
    rw [harrivals] at harrived
    simpa using harrived
  obtain ⟨-, -, -, -, hwaits, hobserved, -⟩ :=
    listen_retries_on_schedule 1 (fun _ => true) (p := impatient) (by decide) hstart hsent
  refine ⟨hreturned, hwaits hreturned, ?_⟩
  intro observer failure hmem
  obtain ⟨fetch, hfetch, updates, q, hanswer, hdispatched⟩ := hobserved observer failure hmem
  simp only [unsteady, List.mem_cons, List.not_mem_nil, or_false] at hfetch
  rcases hfetch with rfl | rfl | rfl | rfl | rfl
  · cases hanswer
  · cases hanswer
  · cases hanswer
  · cases hanswer
    cases hdispatched
  · cases hanswer

end Listening

end ChatDispatch
