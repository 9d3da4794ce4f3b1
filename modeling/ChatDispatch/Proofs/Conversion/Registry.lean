import ChatDispatch.Conversion
import ChatDispatch.Validation

/-!
Registries filled by registrations. Whatever is registered, in whatever order, the converter that is
found for a type gives values of that type, and the validator that is found for a requirement is one
for the type of that requirement. So the optional converters never meet a value of another type, and
no validator a requirement of another type.
-/

namespace ChatDispatch

/-- The value of a conversion is one that the converter has given. -/
theorem Converter.exists_of_attempt {converter : Converter} {context : Context} {word : String}
    {value : Value} (h : converter.attempt context word = .returned (.ok value)) :
    ∃ content, value = ⟨converter.target, content⟩ := by
  obtain ⟨result, _, hvalue⟩ := Ending.map_eq_returned_iff.mp h
  cases result with
  | ok content =>
    cases hvalue
    exact ⟨content, rfl⟩
  | error cause => cases hvalue

namespace ConverterRegistry

variable {registry : ConverterRegistry} {context : Context} {type : ValueType} {word : String}

/-- A conversion fails for want of a converter, or because the converter reports a failure. -/
theorem fault_of_convert {fault : Fault}
    (h : registry.convert context type word = .returned (.error fault)) :
    fault = .noConverter type ∨ ∃ cause, fault = .conversion type cause := by
  unfold convert at h
  split at h
  · cases h
    exact .inl rfl
  · obtain ⟨result, _, hfault⟩ := Ending.map_eq_returned_iff.mp h
    cases result with
    | ok value => cases hfault
    | error cause =>
      cases hfault
      exact .inr ⟨cause, rfl⟩

/-- A conversion succeeds by the converter that is found for the type. -/
theorem exists_of_convert {value : Value}
    (h : registry.convert context type word = .returned (.ok value)) :
    ∃ converter, registry.lookup type = some converter ∧
      converter.attempt context word = .returned (.ok value) := by
  unfold convert at h
  split at h
  · cases h
  next converter hlookup =>
    obtain ⟨result, hattempt, hvalue⟩ := Ending.map_eq_returned_iff.mp h
    cases result with
    | ok other =>
      cases hvalue
      exact ⟨converter, hlookup, hattempt⟩
    | error cause => cases hvalue

def registerAll (registry : ConverterRegistry) (converters : List Converter) : ConverterRegistry :=
  converters.foldl register registry

/-- The registry with a converter put in, and nothing derived from it. -/
def insert (registry : ConverterRegistry) (converter : Converter) : ConverterRegistry :=
  ⟨registry.table.insert converter.target converter⟩

theorem lookup_insert (registry : ConverterRegistry) (converter : Converter) (type : ValueType) :
    (registry.insert converter).lookup type =
      if converter.target = type then some converter else registry.lookup type :=
  Table.get?_insert ..

theorem register_eq (registry : ConverterRegistry) (converter : Converter) :
    registry.register converter =
      if ((registry.insert converter).lookup (.optional converter.target)).isSome then
        registry.insert converter
      else (registry.insert converter).insert (.optional converter.target) := rfl

/-- A registration changes what is found for the type and, if there was nothing, for its optional
form. -/
theorem lookup_register (registry : ConverterRegistry) (converter : Converter)
    (type : ValueType) :
    (registry.register converter).lookup type =
      if converter.target = type then some converter
      else if ValueType.optional converter.target = type ∧ registry.lookup type = none then
        some (.optional converter.target)
      else registry.lookup type := by
  have hdiffer : converter.target ≠ .optional converter.target := converter.target.ne_optional
  rw [register_eq, lookup_insert, if_neg hdiffer]
  cases hlookup : registry.lookup (.optional converter.target) with
  | none =>
    rw [if_neg (by simp), lookup_insert, lookup_insert]
    change (if ValueType.optional converter.target = type then _ else _) = _
    by_cases hoptional : ValueType.optional converter.target = type
    · subst hoptional
      rw [if_pos rfl, if_neg hdiffer, if_pos ⟨rfl, hlookup⟩]
    · have hnone : ¬ (ValueType.optional converter.target = type ∧ registry.lookup type = none) :=
        fun h => hoptional h.1
      rw [if_neg hoptional, if_neg hnone]
  | some kept =>
    have hkept : ¬ (ValueType.optional converter.target = type ∧ registry.lookup type = none) := by
      rintro ⟨rfl, hnone⟩
      rw [hlookup] at hnone
      cases hnone
    rw [if_pos Option.isSome_some, lookup_insert, if_neg hkept]

def Typed (registry : ConverterRegistry) : Prop :=
  ∀ type converter, registry.lookup type = some converter → converter.target = type

theorem typed_empty : empty.Typed := nofun

theorem Typed.register (h : registry.Typed) (converter : Converter) :
    (registry.register converter).Typed := by
  intro type found hfound
  rw [lookup_register] at hfound
  split at hfound
  next htarget =>
    cases hfound
    exact htarget
  · split at hfound
    next hderived =>
      cases hfound
      exact hderived.1
    · exact h type found hfound

theorem Typed.registerAll (h : registry.Typed) (converters : List Converter) :
    (registry.registerAll converters).Typed := by
  induction converters generalizing registry with
  | nil => exact h
  | cons converter rest ih => exact ih (h.register converter)

/-- What converters find in the context of a registry gives values of the type asked for. -/
theorem Typed.exists_of_lookup (h : registry.Typed) {line : String} {depth : Nat}
    {attempt : Attempt} {value : Value}
    (hlookup : (registry.context line depth).lookup type = some attempt)
    (hvalue : attempt word = .returned (.ok value)) :
    ∃ content : type.Carrier, value = ⟨type, content⟩ := by
  cases depth with
  | zero =>
    obtain ⟨converter, _, rfl⟩ := Option.map_eq_some_iff.mp hlookup
    cases hvalue
  | succ depth =>
    obtain ⟨converter, hfound, rfl⟩ := Option.map_eq_some_iff.mp hlookup
    obtain ⟨content, rfl⟩ := Converter.exists_of_attempt hvalue
    obtain rfl := h type converter hfound
    exact ⟨content, rfl⟩

/-- A conversion gives a value of the type asked for. -/
theorem Typed.convert (h : registry.Typed) {value : Value}
    (hvalue : registry.convert context type word = .returned (.ok value)) :
    ∃ content : type.Carrier, value = ⟨type, content⟩ := by
  obtain ⟨converter, hfound, hattempt⟩ := exists_of_convert hvalue
  obtain ⟨content, rfl⟩ := Converter.exists_of_attempt hattempt
  obtain rfl := h type converter hfound
  exact ⟨content, rfl⟩

/-- The failures of an optional converter are that of a missing converter and those of the converter
for the inner type: it is never given a value of another type. -/
theorem Typed.optional (h : registry.Typed) {line : String} {depth : Nat} {inner : ValueType}
    {cause : Cause} (hfailed : (Converter.optional inner).convert (registry.context line depth)
      word = .returned (.error cause)) :
    (registry.context line depth).lookup inner = none ∧
        cause = (Fault.noConverter inner).report ∨
      ∃ attempt, (registry.context line depth).lookup inner = some attempt ∧
        attempt word = .returned (.error cause) := by
  simp only [Converter.optional] at hfailed
  split at hfailed
  · cases hfailed
  · split at hfailed
    next hmissing =>
      cases hfailed
      exact .inl ⟨hmissing, rfl⟩
    next attempt hattempt =>
      obtain ⟨result, hresult, hcause⟩ := Ending.map_eq_returned_iff.mp hfailed
      cases result with
      | error other =>
        cases hcause
        exact .inr ⟨attempt, hattempt, hresult⟩
      | ok value =>
        obtain ⟨content, rfl⟩ := h.exists_of_lookup hattempt hresult
        simp at hcause

end ConverterRegistry

namespace ValidatorRegistry

variable {registry : ValidatorRegistry}

def registerAll (registry : ValidatorRegistry) (validators : List Validator) : ValidatorRegistry :=
  validators.foldl register registry

theorem lookup_register (registry : ValidatorRegistry) (validator : Validator)
    (type : ValueType) :
    (registry.register validator).lookup type =
      if validator.requirement = type then some validator else registry.lookup type :=
  Table.get?_insert ..

def Typed (registry : ValidatorRegistry) : Prop :=
  ∀ type validator, registry.lookup type = some validator → validator.requirement = type

theorem typed_empty : empty.Typed := nofun

theorem Typed.register (h : registry.Typed) (validator : Validator) :
    (registry.register validator).Typed := by
  intro type found hfound
  rw [lookup_register] at hfound
  split at hfound
  next htype =>
    cases hfound
    exact htype
  · exact h type found hfound

theorem Typed.registerAll (h : registry.Typed) (validators : List Validator) :
    (registry.registerAll validators).Typed := by
  induction validators generalizing registry with
  | nil => exact h
  | cons validator rest ih => exact ih (h.register validator)

/-- The validator that is found for a requirement checks its content. -/
theorem Typed.judge (h : registry.Typed) {requirement : Value} {validator : Validator}
    (hlookup : registry.lookup requirement.type = some validator) (message : Message)
    (arguments : Arguments) :
    ∃ content, requirement = ⟨validator.requirement, content⟩ ∧
      validator.judge requirement message arguments =
        validator.check content message arguments := by
  obtain ⟨type, content⟩ := requirement
  obtain rfl := h type validator hlookup
  refine ⟨content, rfl, ?_⟩
  unfold Validator.judge
  rw [Value.as?_mk]

end ValidatorRegistry

end ChatDispatch
