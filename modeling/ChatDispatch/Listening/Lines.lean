import ChatDispatch.Listening.Source
import ChatDispatch.Message.Wire
import ChatDispatch.Text.Basic
import ChatDispatch.Text.Utf8

/-!
Lines of text as a source of updates. Each line that is not blank gives a batch of one update: a
line that holds an update in JSON gives that update, any other is the text of a fresh message. Only
fresh messages are numbered.
-/

namespace ChatDispatch

structure LineStamp where
  group : Nat := 0
  peer : Int := 0
  sender : Int := 0
  deriving DecidableEq, Repr

namespace Lines

open Text

def freshUpdate (stamp : LineStamp) (id : Int) (line : List Char) : Update :=
  .ofMessage stamp.group
    { id, peer := stamp.peer, sender := stamp.sender, text := some (String.ofList line),
      date := .received }

def decoded (line : List Char) : Except (Option Json.Problem) Update :=
  match line with
  | '{' :: _ => (Update.ofText (String.ofList line)).mapError some
  | _ => .error none

/-- The fetches of the lines, the next fresh message getting the number `id`. A line that is not
text fails its fetch; the end of the lines is logged. -/
def fetchesFrom (stamp : LineStamp) (id : Int) :
    List (Except Utf8Fault (List Char)) → List Fetch
  | [] => [⟨[.log .inputEnded], .ended⟩]
  | .error fault :: lines =>
    { answer := .failed (Cause.within "Failed to read input line" ⟨fault.message, []⟩) } ::
      fetchesFrom stamp id lines
  | .ok line :: lines =>
    let line := dropTrailing '\r' line
    if isBlankText line then fetchesFrom stamp id lines
    else match decoded line with
      | .ok update => { answer := .batch [update] } :: fetchesFrom stamp id lines
      | .error problem =>
        let pauses := problem.toList.map fun problem =>
          Pause.log (.lineUndecoded problem.message)
        ⟨pauses, .batch [freshUpdate stamp id line]⟩ :: fetchesFrom stamp (id + 1) lines

def fetches (stamp : LineStamp) (lines : List (Except Utf8Fault (List Char))) : List Fetch :=
  fetchesFrom stamp 1 lines

def ofText (text : List Char) : List (Except Utf8Fault (List Char)) :=
  (pieces '\n' text).map .ok

/-- The bytes between line feeds. A carriage return right before a line feed belongs to it. -/
def splitBytes : List UInt8 → List (List UInt8)
  | [] => [[]]
  | 0x0A :: rest => [] :: splitBytes rest
  | 0x0D :: 0x0A :: rest => [] :: splitBytes rest
  | b :: rest =>
    match splitBytes rest with
    | [] => [[b]]
    | first :: more => (b :: first) :: more

def ofBytes (bytes : List UInt8) : List (Except Utf8Fault (List Char)) :=
  (splitBytes bytes).map decodeUtf8

end Lines

def Source.ofText (stamp : LineStamp) (text : List Char) : Source :=
  ⟨"lines", Lines.fetches stamp (Lines.ofText text)⟩

def Source.ofBytes (stamp : LineStamp) (bytes : List UInt8) : Source :=
  ⟨"lines", Lines.fetches stamp (Lines.ofBytes bytes)⟩

end ChatDispatch
