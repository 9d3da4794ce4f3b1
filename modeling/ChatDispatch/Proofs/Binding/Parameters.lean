import ChatDispatch.Command.Binding
import ChatDispatch.Proofs.Conversion.Registry

/-!
Binding goes through the parameters one by one and stops at the first that cannot be bound. Its
faults are those of the signature, of a converter that is missing and of a word that cannot be
converted; where it does not stop, each parameter has been handed an argument in turn.
-/

namespace ChatDispatch

def Fault.isOfBinding : Fault → Bool
  | .invalidMethod .. | .noConverter _ | .parameterConversion .. => true
  | _ => false

theorem Fault.stage_of_isOfBinding {fault : Fault} (h : fault.isOfBinding = true) :
    fault.stage = .parse := by
  cases fault <;> first | rfl | cases h

namespace Signature

/-- One message, one client, and one parameter for the remaining text at most. -/
structure IsServable (parameters : List Parameter) : Prop where
  message : count .message parameters = 1
  client : count .client parameters = 1
  remaining : count .remaining parameters ≤ 1

theorem checkContext_eq_ok_iff {name : String} {n : Nat} :
    checkContext name n = .ok () ↔ n = 1 := by
  match n with
  | 0 => simp [checkContext]
  | 1 => simp [checkContext]
  | n + 2 => simp [checkContext]

theorem check_eq_ok_iff {parameters : List Parameter} :
    check parameters = .ok () ↔ IsServable parameters := by
  have hbind : ∀ first second : Except SignatureFault Unit,
      (do first; second) = .ok () ↔ first = .ok () ∧ second = .ok () := by
    intro first second
    cases first <;> simp [bind, Except.bind]
  have hremaining : (if 1 < count .remaining parameters then .error .twoRemainders else .ok () :
      Except SignatureFault Unit) = .ok () ↔ count .remaining parameters ≤ 1 := by
    split
    next hmany => exact iff_of_false nofun (by omega)
    next hfew => exact iff_of_true rfl (by omega)
  unfold check
  rw [hbind, hbind, checkContext_eq_ok_iff, checkContext_eq_ok_iff, hremaining]
  exact ⟨fun ⟨hmessage, hclient, hrest⟩ => ⟨hmessage, hclient, hrest⟩,
    fun ⟨hmessage, hclient, hrest⟩ => ⟨hmessage, hclient, hrest⟩⟩

end Signature

namespace Binding

variable {call : Call} {command : String} {parameter : Parameter} {parameters : List Parameter}
  {fault : Fault}

/-- What a converter reports is wrapped with the word and the type. -/
theorem fault_of_bindWord {type : ValueType} {word : String}
    (h : bindWord call type word = .returned (.error fault)) : fault.isOfBinding = true := by
  unfold bindWord at h
  split at h
  · cases h
  · obtain ⟨result, hconvert, hfault⟩ := Ending.map_eq_returned_iff.mp h
    cases result with
    | ok value => cases hfault
    | error converted =>
      rcases ConverterRegistry.fault_of_convert hconvert with rfl | ⟨cause, rfl⟩
      · cases hfault
        rfl
      · cases hfault
        rfl

theorem fault_of_bindOne {kind : ParameterKind} {left : List String}
    (h : (bindOne call kind left).1 = .returned (.error fault)) : fault.isOfBinding = true := by
  cases kind with
  | message => cases h
  | client => cases h
  | remaining => cases h
  | converted type =>
    cases left with
    | nil => cases h
    | cons word left => exact fault_of_bindWord h

theorem fault_of_bindAll {left : List String}
    (h : (bindAll call parameters left).ending = .returned (.error fault)) :
    fault.isOfBinding = true := by
  induction parameters generalizing left with
  | nil => cases h
  | cons parameter rest ih =>
    have hone := @fault_of_bindOne call fault parameter.kind left
    rw [bindAll] at h
    split at h
    · exact ih h
    next other left' hbound =>
      rw [hbound] at hone
      cases h
      exact hone rfl
    · cases h
    · cases h

/-- Whatever faults converters report, the fault of binding is one of its own. -/
theorem fault_of_arguments (h : arguments call command parameters = .returned (.error fault)) :
    fault.isOfBinding = true := by
  obtain ⟨result, hending, hresult⟩ := Ending.map_eq_returned_iff.mp h
  cases result with
  | ok done => cases hresult
  | error other =>
    cases hresult
    unfold bind at hending
    split at hending
    · cases hending
      rfl
    · split at hending
      · cases hending
        rfl
      · exact fault_of_bindAll hending

/-- Parameters that have been handed their arguments one after the other; each takes words off the
front of those that are left. -/
inductive Handed (call : Call) : List String → List Parameter → List Argument → Prop
  | nil {left : List String} : Handed call left [] []
  | cons {left rest : List String} {parameter : Parameter} {parameters : List Parameter}
      {argument : Argument} {arguments : List Argument}
      (hone : bindOne call parameter.kind left = (.returned (.ok argument), rest))
      (hrest : Handed call rest parameters arguments) :
      Handed call left (parameter :: parameters) (argument :: arguments)

theorem handed_of_bindAll {left : List String}
    (h : (bindAll call parameters left).ending = .returned (.ok ())) :
    Handed call left parameters (bindAll call parameters left).arguments := by
  induction parameters generalizing left with
  | nil => exact .nil
  | cons parameter rest ih =>
    rw [bindAll] at h ⊢
    split at h
    next argument left' hbound => exact .cons hbound (ih h)
    · cases h
    · cases h
    · cases h

/-- Where binding succeeds, every parameter has been handed its argument. -/
theorem handed_of_arguments {arguments : Arguments}
    (h : Binding.arguments call command parameters = .returned (.ok arguments)) :
    Handed call (words call.line) parameters arguments.values := by
  obtain ⟨result, hending, hresult⟩ := Ending.map_eq_returned_iff.mp h
  cases result with
  | error fault => cases hresult
  | ok done =>
    obtain rfl : ⟨(bind call command parameters).arguments⟩ = arguments := Except.ok.inj hresult
    unfold bind at hending ⊢
    split at hending
    · cases hending
    · split at hending
      · cases hending
      · exact handed_of_bindAll hending

theorem Handed.length_eq {left : List String} {arguments : List Argument}
    (h : Handed call left parameters arguments) : arguments.length = parameters.length := by
  induction h with
  | nil => rfl
  | cons hone hrest ih => simp [ih]

/-- The argument at a position, and the words that were left for it. -/
theorem Handed.getElem? {left : List String} {arguments : List Argument}
    (h : Handed call left parameters arguments) {position : Nat}
    (hposition : parameters[position]? = some parameter) :
    ∃ argument left', arguments[position]? = some argument ∧
      (bindOne call parameter.kind left').1 = .returned (.ok argument) := by
  induction h generalizing position with
  | nil => cases hposition
  | @cons left rest other parameters argument arguments hone hrest ih =>
    cases position with
    | zero =>
      obtain rfl := Option.some.inj hposition
      exact ⟨argument, left, rfl, by rw [hone]⟩
    | succ position => exact ih hposition

end Binding

end ChatDispatch
