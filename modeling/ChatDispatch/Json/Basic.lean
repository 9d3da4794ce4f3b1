import ChatDispatch.Decimal.Binary64

/-!
Value trees: what a config file holds and what log records carry. An object is a list of entries;
`Json.ofEntries` puts them in increasing order of their keys, the last of equal keys winning.
-/

namespace ChatDispatch

inductive Json where
  | null
  | bool (value : Bool)
  | int (value : Int)
  | real (value : Decimal.Binary64)
  | text (value : String)
  | array (items : List Json)
  | object (entries : List (String × Json))
  deriving Repr, Inhabited

namespace Json

/-- Put an entry into a list in increasing order of keys, in place of one with the same key. -/
def insertEntry (key : String) (value : Json) :
    List (String × Json) → List (String × Json)
  | [] => [(key, value)]
  | (other, old) :: rest =>
    if key = other then (key, value) :: rest
    else if key < other then (key, value) :: (other, old) :: rest
    else (other, old) :: insertEntry key value rest

def ofEntries (entries : List (String × Json)) : Json :=
  .object (entries.foldl (fun sorted (key, value) => insertEntry key value sorted) [])

def emptyObject : Json := .object []

def field? (key : String) : Json → Option Json
  | .object entries => entries.lookup key
  | _ => none

end Json

end ChatDispatch
