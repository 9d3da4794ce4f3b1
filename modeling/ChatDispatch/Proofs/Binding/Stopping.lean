import ChatDispatch.Proofs.Binding.Accounting

/-!
Where binding stops. The parameters in front of the one that could not be bound have their
arguments, and the one that could not has been handed the word of its turn.
-/

namespace ChatDispatch.Binding

variable {call : Call} {command : String} {parameters : List Parameter} {left : List String}
  {fault : Fault}

/-- A parameter that cannot be bound has been handed what those before it leave. -/
theorem exists_of_bindAll_error
    (h : (bindAll call parameters left).ending = .returned (.error fault)) :
    ∃ before parameter after, parameters = before ++ parameter :: after ∧
      (bindAll call parameters left).arguments.length = before.length ∧
      (bindOne call parameter.kind (leftBehind before left)).1 = .returned (.error fault) := by
  induction parameters generalizing left with
  | nil => cases h
  | cons parameter rest ih =>
    rw [bindAll] at h ⊢
    split at h
    next argument left' hone =>
      obtain rfl := rest_of_bindOne hone
      obtain ⟨before, stopped, after, rfl, hlength, hstopped⟩ := ih h
      refine ⟨parameter :: before, stopped, after, rfl, congrArg (· + 1) hlength, ?_⟩
      rw [leftBehind_cons]
      exact hstopped
    next other left' hone =>
      cases h
      refine ⟨[], parameter, rest, rfl, rfl, ?_⟩
      rw [leftBehind_nil, hone]
    next => cases h
    next => cases h

variable {token : String} {target : ValueType} {cause : Cause}

/-- The fault of a conversion holds the word and the type that it was for. -/
theorem of_bindOne_parameterConversion {kind : ParameterKind}
    (h : (bindOne call kind left).1 =
      .returned (.error (.parameterConversion token target cause))) :
    kind = .converted target ∧ left.head? = some token := by
  cases kind with
  | message => cases h
  | client => cases h
  | remaining => cases h
  | converted type =>
    cases left with
    | nil => cases h
    | cons word rest =>
      change bindWord call type word = _ at h
      unfold bindWord at h
      split at h
      · cases h
      · obtain ⟨result, hconvert, hfault⟩ := Ending.map_eq_returned_iff.mp h
        cases result with
        | ok value => cases hfault
        | error converted =>
          rcases ConverterRegistry.fault_of_convert hconvert with rfl | ⟨other, rfl⟩
          · cases hfault
          · cases hfault
            exact ⟨rfl, rfl⟩

/-- Where a word cannot be converted, the parameters before have all been bound, and the word is the
one whose turn it is behind those that they have taken. -/
theorem exists_of_arguments_parameterConversion
    (h : arguments call command parameters =
      .returned (.error (.parameterConversion token target cause))) :
    ∃ before parameter after, parameters = before ++ parameter :: after ∧
      (bind call command parameters).arguments.length = before.length ∧
      parameter.kind = .converted target ∧
      (Text.pieces ' ' call.line.toList)[before.countP Parameter.takesWord + 1]? =
        some token.toList := by
  obtain ⟨result, hending, hresult⟩ := Ending.map_eq_returned_iff.mp h
  cases result with
  | ok done => cases hresult
  | error other =>
    cases hresult
    unfold bind at hending ⊢
    split at hending
    next => cases hending
    next hcheck =>
      split at hending
      next => cases hending
      next hconverters =>
        obtain ⟨before, parameter, after, hparameters, hlength, hone⟩ :=
          exists_of_bindAll_error hending
        obtain ⟨hkind, hhead⟩ := of_bindOne_parameterConversion hone
        refine ⟨before, parameter, after, hparameters, hlength, hkind, ?_⟩
        unfold leftBehind at hhead
        split at hhead
        next => cases hhead
        next =>
          rw [List.head?_drop, getElem?_words] at hhead
          obtain ⟨piece, hpiece, rfl⟩ := Option.map_eq_some_iff.mp hhead
          rw [hpiece, String.toList_ofList]

end ChatDispatch.Binding
