/-!
Typed values. A value carries its own type and can be taken back out only at that type, so what is
stored without a static type is never read at a wrong one.
-/

namespace ChatDispatch

inductive ValueType where
  | unit
  | text
  | flag
  | int32
  | int64
  | nat64
  | list (item : ValueType)
  | optional (inner : ValueType)
  | pair (first second : ValueType)
  | record (name : String) (body : ValueType)
  deriving DecidableEq, Repr

namespace ValueType

def name : ValueType → String
  | unit => "()"
  | text => "alloc::string::String"
  | flag => "bool"
  | int32 => "i32"
  | int64 => "i64"
  | nat64 => "u64"
  | list item => "alloc::vec::Vec<" ++ item.name ++ ">"
  | optional inner => "core::option::Option<" ++ inner.name ++ ">"
  | pair first second => "(" ++ first.name ++ ", " ++ second.name ++ ")"
  | record name _ => name

def Carrier : ValueType → Type
  | unit => Unit
  | text => String
  | flag => Bool
  | int32 => Int32
  | int64 => Int64
  | nat64 => UInt64
  | list item => List item.Carrier
  | optional inner => Option inner.Carrier
  | pair first second => first.Carrier × second.Carrier
  | record _ body => body.Carrier

theorem ne_optional (type : ValueType) : type ≠ .optional type := by
  intro h
  have hsize := congrArg sizeOf h
  simp at hsize

end ValueType

structure Value where
  type : ValueType
  content : type.Carrier

namespace Value

def ofText (s : String) : Value := ⟨.text, s⟩

def as? (type : ValueType) (value : Value) : Option type.Carrier :=
  if h : value.type = type then some (h ▸ value.content) else none

@[simp]
theorem as?_mk (type : ValueType) (content : type.Carrier) :
    (Value.mk type content).as? type = some content := by
  simp [as?]

theorem as?_eq_none {type : ValueType} {value : Value} (h : value.type ≠ type) :
    value.as? type = none := by
  simp [as?, h]

/-- The content read at a type: a value of the optional type counts as well, flattened. -/
def flatten? (type : ValueType) (value : Value) : Option (Option type.Carrier) :=
  match value.as? type with
  | some content => some (some content)
  | none => value.as? (.optional type)

@[simp]
theorem flatten?_mk (type : ValueType) (content : type.Carrier) :
    (Value.mk type content).flatten? type = some (some content) := by
  simp [flatten?]

@[simp]
theorem flatten?_optional (inner : ValueType) (content : Option inner.Carrier) :
    (Value.mk (.optional inner) content).flatten? inner = some content := by
  have hown : (Value.mk (.optional inner) content).as? inner = none :=
    as?_eq_none (Ne.symm inner.ne_optional)
  rw [flatten?, hown]
  exact as?_mk (.optional inner) content

theorem flatten?_eq_none {type : ValueType} {value : Value} (hown : value.type ≠ type)
    (hoptional : value.type ≠ .optional type) : value.flatten? type = none := by
  rw [flatten?, as?_eq_none hown]
  exact as?_eq_none hoptional

end Value

end ChatDispatch
