import ChatDispatch.Json.Basic
import ChatDispatch.Text.Date
import ChatDispatch.Text.Numeral
import ChatDispatch.Text.Quoted

/-!
The shapes that outside data must have, and the ways it can miss them. A shape determines the type
of the values read by it; records read their fields by key, and a field that is not required falls
back to the default of its own shape. A value tree is read in its own order, and the first mismatch
is the one reported.
-/

namespace ChatDispatch

mutual

inductive Shape where
  | text
  | path
  | flag
  | whole (name : String) (bounds : Text.Bounds)
  | instant
  | choice (options : List String)
  | list (item : Shape)
  | optional (inner : Shape)
  | record (name : String) (fields : Fields)

inductive Fields where
  | nil
  | cons (key : String) (required : Bool) (shape : Shape) (rest : Fields)

end

mutual

/-- The values read by a shape; a choice is the number of the option. -/
def Shape.Carrier : Shape → Type
  | .text => String
  | .path => String
  | .flag => Bool
  | .whole _ _ => Int
  | .instant => Text.Instant
  | .choice _ => Nat
  | .list item => List item.Carrier
  | .optional inner => Option inner.Carrier
  | .record _ fields => fields.Carrier

def Fields.Carrier : Fields → Type
  | .nil => Unit
  | .cons _ _ shape rest => shape.Carrier × rest.Carrier

end

mutual

def Shape.default : (shape : Shape) → shape.Carrier
  | .text => ""
  | .path => ""
  | .flag => false
  | .whole _ _ => (0 : Int)
  | .instant => Text.Instant.epoch
  | .choice _ => (0 : Nat)
  | .list item => ([] : List item.Carrier)
  | .optional inner => (none : Option inner.Carrier)
  | .record _ fields => fields.default

def Fields.default : (fields : Fields) → fields.Carrier
  | .nil => ()
  | .cons _ _ shape rest => (shape.default, rest.default)

end

inductive Found where
  | null
  | bool (value : Bool)
  | int (value : Int)
  | real (value : Decimal.Binary64)
  | text (value : String)
  | sequence
  | map
  deriving Repr

def Found.message : Found → String
  | null => "null"
  | bool value => "boolean `" ++ (if value then "true" else "false") ++ "`"
  | int value => "integer `" ++ Text.decimal value ++ "`"
  | real value => "floating point `" ++ value.text ++ "`"
  | text value => "string " ++ Text.quoted value
  | sequence => "sequence"
  | map => "map"

def Found.ofTree : Json → Found
  | .null => .null
  | .bool value => .bool value
  | .int value => .int value
  | .real value => .real value
  | .text value => .text value
  | .array _ => .sequence
  | .object _ => .map

inductive Mismatch where
  | wrongType (found : Found) (expected : String)
  | wrongValue (found : Found) (expected : String)
  | wrongLength (length : Nat) (expected : String)
  | missingField (key : String)
  | duplicateField (key : String)
  | unknownOption (option : String) (options : List String)
  | badDate (fault : Text.DateFault)
  deriving Repr

def optionsText (options : List String) : String :=
  let ticked := options.map fun option => "`" ++ option ++ "`"
  match ticked with
  | [] => "there are no variants"
  | [one] => "expected " ++ one
  | [one, other] => "expected " ++ one ++ " or " ++ other
  | many => "expected one of " ++ ", ".intercalate many

def Mismatch.message : Mismatch → String
  | wrongType found expected => "invalid type: " ++ found.message ++ ", expected " ++ expected
  | wrongValue found expected => "invalid value: " ++ found.message ++ ", expected " ++ expected
  | wrongLength length expected =>
    "invalid length " ++ toString length ++ ", expected " ++ expected
  | missingField key => "missing field `" ++ key ++ "`"
  | duplicateField key => "duplicate field `" ++ key ++ "`"
  | unknownOption option options =>
    "unknown variant `" ++ option ++ "`, " ++ optionsText options
  | badDate fault => fault.message

namespace Fields

def count : Fields → Nat
  | .nil => 0
  | .cons _ _ _ rest => rest.count + 1

def Slots : Fields → Type
  | .nil => Unit
  | .cons _ _ shape rest => Option shape.Carrier × rest.Slots

def noSlots : (fields : Fields) → fields.Slots
  | .nil => ()
  | .cons _ _ _ rest => (none, rest.noSlots)

/-- Close a record: a field without a value gets its default, unless it is required. -/
def close : (fields : Fields) → fields.Slots → Except Mismatch fields.Carrier
  | .nil, _ => .ok ()
  | .cons key required shape rest, (slot, slots) => do
    let value ← match slot with
      | some value => .ok value
      | none => if required then .error (.missingField key) else .ok shape.default
    let values ← rest.close slots
    .ok (value, values)

end Fields

namespace Shape

def expected : Shape → String
  | .text => "a string"
  | .path => "path string"
  | .flag => "a boolean"
  | .whole name _ => name
  | .instant => "an RFC 3339 formatted date and time string"
  | .choice _ => "string or map"
  | .list _ => "a sequence"
  | .optional inner => inner.expected
  | .record name _ => "struct " ++ name

def positional (name : String) (fields : Fields) : String :=
  "struct " ++ name ++ " with " ++ toString fields.count ++
    (if fields.count = 1 then " element" else " elements")

def optionIndex (options : List String) (option : String) : Except Mismatch Nat :=
  match options.findIdx? (· == option) with
  | some index => .ok index
  | none => .error (.unknownOption option options)

end Shape

def readItems {α : Type} (read : Json → Except Mismatch α) :
    List Json → Except Mismatch (List α)
  | [] => .ok []
  | item :: rest => do
    let value ← read item
    let values ← readItems read rest
    .ok (value :: values)

mutual

def Shape.ofTree (shape : Shape) (tree : Json) : Except Mismatch shape.Carrier :=
  match shape with
  | .text => match tree with
    | .text value => .ok value
    | other => .error (.wrongType (.ofTree other) Shape.text.expected)
  | .path => match tree with
    | .text value => .ok value
    | other => .error (.wrongType (.ofTree other) Shape.path.expected)
  | .flag => match tree with
    | .bool value => .ok value
    | other => .error (.wrongType (.ofTree other) Shape.flag.expected)
  | .whole name bounds => match tree with
    | .int value =>
      if bounds.contains value then .ok value else .error (.wrongValue (.int value) name)
    | other => .error (.wrongType (.ofTree other) name)
  | .instant => match tree with
    | .text value => (Text.Instant.parse value.toList).mapError .badDate
    | other => .error (.wrongType (.ofTree other) Shape.instant.expected)
  | .choice options => match tree with
    | .text option => Shape.optionIndex options option
    | .object [(option, argument)] => do
      let index ← Shape.optionIndex options option
      match argument with
      | .null => .ok index
      | other => .error (.wrongType (.ofTree other) "unit")
    | .object _ => .error (.wrongValue .map "map with a single key")
    | other => .error (.wrongType (.ofTree other) "string or map")
  | .list item => match tree with
    | .array items => readItems item.ofTree items
    | other => .error (.wrongType (.ofTree other) "a sequence")
  | .optional inner => match tree with
    | .null => .ok none
    | other => (inner.ofTree other).map some
  | .record name fields => match tree with
    | .array items => do
      let (value, rest) ← fields.ofItems (Shape.positional name fields) 0 items
      if rest.isEmpty then .ok value
      else .error (.wrongLength items.length "fewer elements in array")
    | .object entries => do
      let slots ← entries.foldlM (fun slots (key, tree) => fields.assign key tree slots)
        fields.noSlots
      fields.close slots
    | other => .error (.wrongType (.ofTree other) ("struct " ++ name))

/-- Read a positional record, `index` fields of which are behind; `whole` names it. -/
def Fields.ofItems (fields : Fields) (whole : String) (index : Nat) (items : List Json) :
    Except Mismatch (fields.Carrier × List Json) :=
  match fields with
  | .nil => .ok ((), items)
  | .cons _ required shape rest => match items with
    | [] =>
      if required then .error (.wrongLength index whole)
      else do
        let (values, remaining) ← rest.ofItems whole (index + 1) []
        .ok ((shape.default, values), remaining)
    | item :: more => do
      let value ← shape.ofTree item
      let (values, remaining) ← rest.ofItems whole (index + 1) more
      .ok ((value, values), remaining)

/-- Read one entry of an object into its slot; an unknown key is passed over. -/
def Fields.assign (fields : Fields) (key : String) (tree : Json) (slots : fields.Slots) :
    Except Mismatch fields.Slots :=
  match fields, slots with
  | .nil, _ => .ok ()
  | .cons name _ shape rest, (slot, others) =>
    if key = name then
      match slot with
      | some _ => .error (.duplicateField name)
      | none => do
        let value ← shape.ofTree tree
        .ok (some value, others)
    else do
      let others ← rest.assign key tree others
      .ok (slot, others)

end

end ChatDispatch
