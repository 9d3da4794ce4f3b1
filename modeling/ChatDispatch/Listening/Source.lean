import ChatDispatch.Message.Basic
import ChatDispatch.Program

/-!
Sources of updates, as scripts of what each fetch does before it answers and what it answers.
-/

namespace ChatDispatch

inductive Pause where
  | wait (milliseconds : Nat)
  | forever
  | signal (signal : Signal)
  | log (record : LogRecord)
  deriving DecidableEq, Repr

inductive Answer where
  | batch (updates : List Update)
  | failed (cause : Cause)
  | ended
  deriving DecidableEq, Repr

structure Fetch where
  pauses : List Pause := []
  answer : Answer
  deriving DecidableEq, Repr

def Fetch.isImmediate (fetch : Fetch) : Bool :=
  fetch.pauses.all fun pause =>
    match pause with
    | .wait milliseconds => milliseconds == 0
    | .forever => false
    | _ => true

/-- A source; behind its last fetch it is exhausted. -/
structure Source where
  name : String
  fetches : List Fetch

def Source.queue (batches : List (List Update)) : Source :=
  ⟨"queue", batches.map fun updates => { answer := .batch updates }⟩

end ChatDispatch
