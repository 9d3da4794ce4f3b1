import ChatDispatch.Program

/-!
Time as the engine meets it: the present moment, signals that are due later, and the switch that
they are sent to. A signal is delivered only while the engine waits; one that is due at the very
moment a wait ends comes after it.
-/

namespace ChatDispatch

/-- The switch that stops a loop: whether it is on, and whether anyone can still turn it. -/
structure Switch where
  isOn : Bool := false
  isClosed : Bool := true
  deriving DecidableEq, Repr

namespace Switch

/-- The switch after a signal; a closed one does not move. -/
def send (switch : Switch) (signal : Signal) : Switch :=
  if switch.isClosed then switch
  else match signal with
    | .stop => { switch with isOn := true }
    | .carryOn => { switch with isOn := false }
    | .hangUp => { switch with isClosed := true }

/-- A loop that waits takes notice: the switch is on, or nobody can turn it any more. -/
def isTripped (switch : Switch) : Bool := switch.isOn || switch.isClosed

end Switch

structure Timer where
  due : Nat
  signal : Signal
  deriving DecidableEq, Repr

/-- The present moment in milliseconds, the moment at which waiting is given up, the timers in the
order in which they are due, and the switch. -/
structure Clock where
  now : Nat := 0
  deadline : Option Nat := none
  timers : List Timer := []
  switch : Switch := {}
  deriving DecidableEq, Repr

namespace Clock

def send (clock : Clock) (signal : Signal) : Clock :=
  { clock with switch := clock.switch.send signal }

inductive WaitEnd where
  | elapsed
  | tripped
  | givenUp
  deriving DecidableEq, Repr

/-- What comes of delivering timers: whether the switch was tripped, the clock then, and the timers
that were delivered, in order. -/
structure Delivery where
  isTripped : Bool
  clock : Clock
  delivered : List Timer

/-- None of the timers behind this one is due at the same moment. -/
def isLastDue (timer : Timer) : List Timer → Bool
  | [] => true
  | next :: _ => next.due ≠ timer.due

def receive (clock : Clock) (timer : Timer) (rest : List Timer) : Clock :=
  { clock with
    now := max clock.now timer.due
    timers := rest
    switch := clock.switch.send timer.signal }

/-- Deliver the timers due before `moment`, all that are due at once before the switch is looked
at, and stop at the first that trips it if `watches` says to look. -/
def deliver (watches : Bool) (moment : Nat) (clock : Clock) : List Timer → Delivery
  | [] => ⟨false, { clock with timers := [] }, []⟩
  | timer :: rest =>
    if timer.due < moment then
      let clock := clock.receive timer rest
      if watches && isLastDue timer rest && clock.switch.isTripped then ⟨true, clock, [timer]⟩
      else
        let delivery := deliver watches moment clock rest
        { delivery with delivered := timer :: delivery.delivered }
    else ⟨false, { clock with timers := timer :: rest }, []⟩

structure Waited where
  waitEnd : WaitEnd
  clock : Clock
  delivered : List Timer

def Delivery.waited (delivery : Delivery) (limit : Nat) (waitEnd : WaitEnd) : Waited :=
  if delivery.isTripped then ⟨.tripped, delivery.clock, delivery.delivered⟩
  else ⟨waitEnd, { delivery.clock with now := limit }, delivery.delivered⟩

/-- Wait for some time; `watches` says whether a tripped switch ends the wait. -/
def wait (watches : Bool) (milliseconds : Nat) (clock : Clock) : Waited :=
  let moment := clock.now + milliseconds
  let limit := (clock.deadline.map (min moment)).getD moment
  (deliver watches limit clock clock.timers).waited limit
    (if limit < moment then .givenUp else .elapsed)

def waitForever (clock : Clock) : Waited :=
  match clock.deadline with
  | some limit => (deliver true limit clock clock.timers).waited limit .givenUp
  | none =>
    let last := clock.timers.foldl (fun m t => max m t.due) clock.now
    (deliver true (last + 1) clock clock.timers).waited last .givenUp

end Clock

end ChatDispatch
