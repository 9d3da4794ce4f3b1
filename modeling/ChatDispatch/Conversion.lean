import ChatDispatch.Fault
import ChatDispatch.Log.Record
import ChatDispatch.Table

/-!
Converters from words to typed values, and the registry that holds one for each type. Registering
a converter for a type provides one for its optional form as well, which asks for the converter of
the inner type anew at each conversion.
-/

namespace ChatDispatch

/-- A try to convert a word, by whatever converter there is for a type. -/
abbrev Attempt := String → Ending (Except Cause Value)

/-- What a converter can see: the whole command line, and the converters of a registry. -/
structure Context where
  line : String
  lookup : ValueType → Option Attempt

structure Converter where
  target : ValueType
  convert : Context → String → Ending (Except Cause target.Carrier)

namespace Converter

/-- The conversion with the static type forgotten. -/
def attempt (converter : Converter) (context : Context) : Attempt := fun word =>
  (converter.convert context word).map fun result => result.map (Value.mk converter.target)

/-- The report of a converter that gave a value of a type it is not for. -/
def strayValue (type : ValueType) : Cause :=
  ⟨"converter for " ++ type.name ++ " produced a value of another type", []⟩

/-- The derived converter of an optional type: an empty word is no value, any other word goes to
the converter that the context has for the inner type. -/
def optional (inner : ValueType) : Converter where
  target := .optional inner
  convert context word :=
    if word = "" then .returned (.ok none)
    else match context.lookup inner with
      | none => .returned (.error (Fault.noConverter inner).report)
      | some attempt => (attempt word).map fun result =>
        match result with
        | .error cause => .error cause
        | .ok value =>
          match value.as? inner with
          | some content => .ok (some content)
          | none => .error (strayValue inner)

def text : Converter where
  target := .text
  convert _ word := .returned (.ok word)

def int32 : Converter where
  target := .int32
  convert _ word := .returned <|
    match Text.readNumeral 10 Text.Bounds.int32 word.toList with
    | .ok n => .ok (Int32.ofInt n)
    | .error fault =>
      .error (Cause.within ("'" ++ word ++ "' is not a 32-bit integer") ⟨fault.message, []⟩)

end Converter

structure ConverterRegistry where
  table : Table ValueType Converter

namespace ConverterRegistry

def empty : ConverterRegistry := ⟨.empty⟩

def lookup (registry : ConverterRegistry) (type : ValueType) : Option Converter :=
  registry.table.get? type

def contains (registry : ConverterRegistry) (type : ValueType) : Bool :=
  registry.table.contains type

def types (registry : ConverterRegistry) : List ValueType := registry.table.keys

def size (registry : ConverterRegistry) : Nat := registry.table.size

def typeNames (registry : ConverterRegistry) : List String :=
  (registry.types.map ValueType.name).mergeSort fun a b => !decide (b < a)

/-- Put a converter in, in place of one for the same type, and derive one for the optional type if
that has none. -/
def register (registry : ConverterRegistry) (converter : Converter) : ConverterRegistry :=
  let table := registry.table.insert converter.target converter
  if table.contains (.optional converter.target) then ⟨table⟩
  else ⟨table.insert (.optional converter.target) (.optional converter.target)⟩

def registrationLog (registry : ConverterRegistry) (converter : Converter) : List LogRecord :=
  (if registry.contains converter.target then
    [.converterReplaced converter.target.name] else []) ++
  (if registry.contains (.optional converter.target) then
    [.optionalKept (ValueType.optional converter.target).name] else [])

def builtin : ConverterRegistry := (empty.register .text).register .int32

/-- The registry as a context for converters, which may ask it in turn up to `depth` times. -/
def context (registry : ConverterRegistry) (line : String) : Nat → Context
  | 0 => ⟨line, fun type => (registry.lookup type).map fun _ _ => .hung⟩
  | depth + 1 =>
    ⟨line, fun type => (registry.lookup type).map fun converter =>
      converter.attempt (registry.context line depth)⟩

def convert (registry : ConverterRegistry) (context : Context) (type : ValueType)
    (word : String) : Ending (Except Fault Value) :=
  match registry.lookup type with
  | none => .returned (.error (.noConverter type))
  | some converter =>
    (converter.attempt context word).map fun result => result.mapError (.conversion type)

end ConverterRegistry

def Context.convert (context : Context) (type : ValueType) (word : String) :
    Ending (Except Fault Value) :=
  match context.lookup type with
  | none => .returned (.error (.noConverter type))
  | some attempt => (attempt word).map fun result => result.mapError (.conversion type)

end ChatDispatch
