import ChatDispatch.Message.Basic
import ChatDispatch.Shape.Basic
import ChatDispatch.Shape.Wire

/-!
Messages and updates as JSON.
-/

namespace ChatDispatch

open Text (Bounds)

def identifierShape : Shape := .whole "i64" Bounds.int64
def countShape : Shape := .whole "u64" Bounds.nat64

def Message.fields : Fields :=
  .cons "id" false identifierShape <|
  .cons "peer_id" false identifierShape <|
  .cons "from_id" false identifierShape <|
  .cons "text" false (.optional .text) <|
  .cons "body" false (.optional .text) <|
  .cons "date" false .instant .nil

def Message.shape : Shape := .record "Message" Message.fields

def Message.ofFields : Message.fields.Carrier → Message
  | (id, peer, sender, text, body, date, ()) => ⟨id, peer, sender, text, body, .known date⟩

def Update.fields : Fields :=
  .cons "type" true .text <|
  .cons "group_id" false countShape <|
  .cons "object" false (.optional Message.shape) .nil

def Update.shape : Shape := .record "GroupUpdate" Update.fields

def Update.ofFields : Update.fields.Carrier → Update
  | (kind, group, object, ()) => ⟨kind, Int.toNat group, Option.map Message.ofFields object⟩

def Update.ofText (text : String) : Except Json.Problem Update :=
  (Update.shape.ofText text).map Update.ofFields

def Update.ofTree (tree : Json) : Except Mismatch Update :=
  (Update.shape.ofTree tree).map Update.ofFields

def Message.ofTree (tree : Json) : Except Mismatch Message :=
  (Message.shape.ofTree tree).map Message.ofFields

/-- The date of a message; `now` is what stands for the moment at which it is written. -/
def Stamp.text (now : String) : Stamp → String
  | known instant => instant.text
  | received => now

def Message.tree (now : String) (message : Message) : Json :=
  let optional (key : String) (text : Option String) : List (String × Json) :=
    (text.map fun text => (key, Json.text text)).toList
  .ofEntries <|
    [ ("id", .int message.id), ("peer_id", .int message.peer), ("from_id", .int message.sender),
      ("date", .text (message.date.text now)) ] ++
    optional "text" message.text ++ optional "body" message.body

def Update.tree (now : String) (update : Update) : Json :=
  .ofEntries <|
    [("type", .text update.kind), ("group_id", .int update.group)] ++
    (update.object.map fun message => ("object", message.tree now)).toList

end ChatDispatch
