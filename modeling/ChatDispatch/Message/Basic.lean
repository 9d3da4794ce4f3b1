import ChatDispatch.Text.Date

/-!
Chat messages and the updates that carry them.
-/

namespace ChatDispatch

/-- When a message was written: at a known instant, or at the moment it was received. -/
inductive Stamp where
  | known (instant : Text.Instant)
  | received
  deriving DecidableEq, Repr

/-- An inbound message. Replies go to the conversation `peer`; `body` is an older field that
counts only where there is no `text`. -/
structure Message where
  id : Int := 0
  peer : Int := 0
  sender : Int := 0
  text : Option String := none
  body : Option String := none
  date : Stamp := .known Text.Instant.epoch
  deriving DecidableEq, Repr

def Message.content (message : Message) : String :=
  (message.text.or message.body).getD ""

structure Update where
  kind : String
  group : Nat := 0
  object : Option Message := none
  deriving DecidableEq, Repr

namespace Update

def freshMessage : String := "message_new"

def ofMessage (group : Nat) (message : Message) : Update :=
  ⟨freshMessage, group, some message⟩

/-- The message of an update that carries a fresh one. -/
def message? (update : Update) : Option Message :=
  if update.kind = freshMessage then update.object else none

end Update

end ChatDispatch
