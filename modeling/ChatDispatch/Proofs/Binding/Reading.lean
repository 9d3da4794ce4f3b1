import ChatDispatch.Proofs.Binding.Parameters

/-!
Reading the arguments that words have been bound to. With converters and validators that have come
into their registries by registration, each argument can be read in the way that the kind of its
parameter promises. A converted value is there at its own type and, flattened, at the inner type if
its own is optional; it cannot be read at any other type.
-/

namespace ChatDispatch

/-- What reading a value of a type gives at each type. -/
structure Arguments.Yields (arguments : Arguments) (index : Nat) (type : ValueType)
    (content : type.Carrier) : Prop where
  own : arguments.value type index = .ok (some content)
  inner (inner : ValueType) (inside : Option inner.Carrier)
    (h : Value.mk type content = ⟨.optional inner, inside⟩) :
    arguments.value inner index = .ok inside
  other (other : ValueType) (hown : other ≠ type) (hinner : type ≠ .optional other) :
    arguments.value other index = .error (.argumentMismatch index (.value other))

/-- The argument at an index can be read as one of a parameter of this kind. -/
def Arguments.ReadsBack (arguments : Arguments) (call : Binding.Call) (index : Nat) :
    ParameterKind → Prop
  | .message => arguments.message index = .ok call.message
  | .client => arguments.client index = .ok call.client
  | .remaining =>
    arguments.text index = .ok none ∨ ∃ text, text ≠ "" ∧ arguments.text index = .ok (some text)
  | .converted type =>
    (arguments.isAbsent index = true ∧ ∀ other, arguments.value other index = .ok none) ∨
      ∃ content, arguments.get? index = some (.value ⟨type, content⟩) ∧
        arguments.Yields index type content

namespace Arguments

variable {arguments : Arguments} {index : Nat}

theorem value_of_absent (h : arguments.get? index = some .absent) (type : ValueType) :
    arguments.value type index = .ok none := by
  simp only [value, h]

theorem value_of_flatten {type : ValueType} {value : Value} {content : Option type.Carrier}
    (h : arguments.get? index = some (.value value)) (hread : value.flatten? type = some content) :
    arguments.value type index = .ok content := by
  simp only [Arguments.value, h, hread]

theorem yields_of_get? {type : ValueType} {content : type.Carrier}
    (h : arguments.get? index = some (.value ⟨type, content⟩)) :
    arguments.Yields index type content where
  own := value_of_flatten h (Value.flatten?_mk type content)
  inner inner inside heq := by
    rw [heq] at h
    exact value_of_flatten h (Value.flatten?_optional inner inside)
  other other hown hinner := by
    have hread : (Value.mk type content).flatten? other = none :=
      Value.flatten?_eq_none (Ne.symm hown) hinner
    simp only [Arguments.value, h, hread]

end Arguments

namespace Binding

variable {call : Call} {arguments : Arguments} {index : Nat} {argument : Argument}

/-- A word that is there is bound to a value of the type of its parameter. -/
theorem exists_of_bindWord (htyped : call.converters.Typed) {type : ValueType} {word : String}
    (h : bindWord call type word = .returned (.ok argument)) :
    ∃ content, argument = .value ⟨type, content⟩ := by
  unfold bindWord at h
  split at h
  next htext =>
    subst htext
    cases h
    exact ⟨word, rfl⟩
  · obtain ⟨result, hconvert, hargument⟩ := Ending.map_eq_returned_iff.mp h
    cases result with
    | ok value =>
      cases hargument
      obtain ⟨content, rfl⟩ := htyped.convert hconvert
      exact ⟨content, rfl⟩
    | error fault => cases fault <;> cases hargument

theorem readsBack_of_bindOne (htyped : call.converters.Typed) {kind : ParameterKind}
    {left : List String} (hget : arguments.get? index = some argument)
    (h : (bindOne call kind left).1 = .returned (.ok argument)) :
    arguments.ReadsBack call index kind := by
  cases kind with
  | message =>
    cases h
    simp only [Arguments.ReadsBack, Arguments.message, hget]
  | client =>
    cases h
    simp only [Arguments.ReadsBack, Arguments.client, hget]
  | remaining =>
    cases h
    by_cases hempty : remainder left = ""
    · rw [if_pos hempty] at hget
      exact .inl (Arguments.value_of_absent hget .text)
    · rw [if_neg hempty] at hget
      exact .inr ⟨remainder left, hempty, (Arguments.yields_of_get? hget).own⟩
  | converted type =>
    cases left with
    | nil =>
      cases h
      have habsent : arguments.isAbsent index = true := by
        simp [Arguments.isAbsent, hget, Argument.isAbsent]
      exact .inl ⟨habsent, Arguments.value_of_absent hget⟩
    | cons word left =>
      obtain ⟨content, rfl⟩ := exists_of_bindWord htyped h
      exact .inr ⟨content, hget, Arguments.yields_of_get? hget⟩

/-- Behind any registrations, arguments are read back as their parameters declare them. No optional
converter is given a value of another type: it fails for want of a converter or with what the
converter for the inner type reports. No validator is given a requirement of another type. -/
theorem arguments_read_back (converters : List Converter) (validators : List Validator) :
    (∀ (call : Call) (command : String) (parameters : List Parameter) (arguments : Arguments),
      call.converters = ConverterRegistry.empty.registerAll converters →
      Binding.arguments call command parameters = .returned (.ok arguments) →
        arguments.size = parameters.length ∧
        ∀ index parameter, parameters[index]? = some parameter →
          arguments.ReadsBack call index parameter.kind) ∧
    (∀ (line : String) (depth : Nat) (inner : ValueType) (word : String) (cause : Cause),
      let context := (ConverterRegistry.empty.registerAll converters).context line depth
      (Converter.optional inner).convert context word = .returned (.error cause) →
        context.lookup inner = none ∧ cause = (Fault.noConverter inner).report ∨
        ∃ attempt, context.lookup inner = some attempt ∧
          attempt word = .returned (.error cause)) ∧
    (∀ (requirement : Value) (validator : Validator) (message : Message) (arguments : Arguments),
      (ValidatorRegistry.empty.registerAll validators).lookup requirement.type = some validator →
        ∃ content, requirement = ⟨validator.requirement, content⟩ ∧
          validator.judge requirement message arguments =
            validator.check content message arguments) := by
  have hconverters := ConverterRegistry.typed_empty.registerAll converters
  have hvalidators := ValidatorRegistry.typed_empty.registerAll validators
  refine ⟨?_, ?_, ?_⟩
  · intro call command parameters arguments hcall hbound
    have htyped : call.converters.Typed := hcall ▸ hconverters
    have hhanded := handed_of_arguments hbound
    refine ⟨hhanded.length_eq, fun index parameter hparameter => ?_⟩
    obtain ⟨argument, left, hget, hone⟩ := hhanded.getElem? hparameter
    exact readsBack_of_bindOne htyped hget hone
  · intro line depth inner word cause context hfailed
    exact hconverters.optional hfailed
  · intro requirement validator message arguments hlookup
    exact hvalidators.judge hlookup message arguments

def countedCall : Call :=
  ⟨"/say 5 a b", { text := some "/say 5 a b" }, .memory,
    ConverterRegistry.empty.registerAll [.text, .int32], 1⟩

/-- An optional number and the words behind it, read back. -/
theorem readsBack_countedCall :
    ∃ arguments, Binding.arguments countedCall "say" [.converted "times" (.optional .int32),
        .remaining "words", .message, .client] = .returned (.ok arguments) ∧
      arguments.size = 4 ∧
      arguments.ReadsBack countedCall 0 (.converted (.optional .int32)) ∧
      arguments.ReadsBack countedCall 1 .remaining := by
  have hbound : Binding.arguments countedCall "say" [.converted "times" (.optional .int32),
      .remaining "words", .message, .client] =
      .returned (.ok ⟨[.value ⟨.optional .int32, some (5 : Int32)⟩, .value (.ofText "a b"),
        .message countedCall.message, .client .memory]⟩) := by rfl
  obtain ⟨hread, _, _⟩ := arguments_read_back [.text, .int32] []
  obtain ⟨hsize, hreads⟩ := hread countedCall _ _ _ rfl hbound
  exact ⟨_, hbound, hsize, hreads 0 _ rfl, hreads 1 _ rfl⟩

end Binding

end ChatDispatch
