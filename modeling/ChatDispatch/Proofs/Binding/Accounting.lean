import ChatDispatch.Proofs.Binding.Parameters
import ChatDispatch.Proofs.Text.Pieces

/-!
What becomes of the words of a line. The parameters that convert a word take the words one by one,
in the order in which both stand; a parameter for the remaining text takes the rest of the line as
it is, and nothing is left behind it. The message and the client are taken from the call and not
from the line, so where they are declared makes no difference to the others.
-/

namespace ChatDispatch

def Parameter.takesWord (parameter : Parameter) : Bool := parameter.target?.isSome

def Parameter.takesRest (parameter : Parameter) : Bool := parameter.kind = .remaining

/-- The value that a word stands for at a type: the word itself as a text, and otherwise what the
converter that is registered for the type gives for it. -/
inductive Argument.Holds (call : Binding.Call) : ValueType → String → Argument → Prop
  | text {word : String} : Holds call .text word (.value (.ofText word))
  | converted {type : ValueType} {word : String} {converter : Converter} {value : Value}
      (htype : type ≠ .text)
      (hlookup : call.converters.lookup type = some converter)
      (hvalue : converter.attempt (call.converters.context call.line call.depth) word =
        .returned (.ok value)) :
      Holds call type word (.value value)

/-- The argument of a parameter of this kind behind the parameters `before`, for a line that is
written as `words`; the first of these is the command word. -/
def Argument.Accounts (argument : Argument) (call : Binding.Call) (words : List (List Char))
    (before : List Parameter) : ParameterKind → Prop
  | .message => argument = .message call.message
  | .client => argument = .client call.client
  | .remaining =>
    let taken := before.countP Parameter.takesWord
    (∀ rest, Text.IsBehind ' ' taken call.line.toList rest → rest ≠ [] →
      argument = .value (.ofText (String.ofList rest))) ∧
    (argument = .absent ↔ ∀ rest, Text.IsBehind ' ' taken call.line.toList rest → rest = [])
  | .converted type =>
    if before.any Parameter.takesRest then argument = .absent
    else
      let taken := before.countP Parameter.takesWord
      (∀ word, words[taken + 1]? = some word → argument.Holds call type (String.ofList word)) ∧
      (argument = .absent ↔ words.length ≤ taken + 1)

namespace Binding

variable {call : Call} {command : String} {parameter : Parameter}
  {parameters before after : List Parameter} {left : List String} {argument : Argument}

def leftBehind (parameters : List Parameter) (left : List String) : List String :=
  if parameters.any Parameter.takesRest then []
  else left.drop (parameters.countP Parameter.takesWord)

@[simp]
theorem leftBehind_nil (left : List String) : leftBehind [] left = left := by simp [leftBehind]

theorem leftBehind_cons (parameter : Parameter) (parameters : List Parameter)
    (left : List String) :
    leftBehind (parameter :: parameters) left =
      leftBehind parameters (leftBehind [parameter] left) := by
  unfold leftBehind
  by_cases hrest : parameter.takesRest = true
  · simp [hrest]
  · by_cases hword : parameter.takesWord = true <;> simp [hrest, hword]

/-- What one parameter leaves. -/
theorem rest_of_bindOne {rest : List String}
    (h : bindOne call parameter.kind left = (.returned (.ok argument), rest)) :
    rest = leftBehind [parameter] left := by
  have hrest : rest = (bindOne call parameter.kind left).2 := by rw [h]
  rw [hrest]
  cases hkind : parameter.kind with
  | message => simp [bindOne, leftBehind, Parameter.takesRest, Parameter.takesWord,
      Parameter.target?, hkind]
  | client => simp [bindOne, leftBehind, Parameter.takesRest, Parameter.takesWord,
      Parameter.target?, hkind]
  | remaining => simp [bindOne, leftBehind, Parameter.takesRest, hkind]
  | converted type =>
    cases left <;> simp [bindOne, leftBehind, Parameter.takesRest, Parameter.takesWord,
      Parameter.target?, hkind]

/-- The argument of a parameter is bound to the words that those before it leave. -/
theorem Handed.bindOne_leftBehind {arguments : List Argument}
    (h : Handed call left (before ++ parameter :: after) arguments) :
    ∃ argument rest, arguments[before.length]? = some argument ∧
      bindOne call parameter.kind (leftBehind before left) = (.returned (.ok argument), rest) := by
  induction before generalizing left arguments with
  | nil =>
    cases h with
    | cons hone hrest => exact ⟨_, _, rfl, hone⟩
  | cons first before ih =>
    cases h with
    | cons hone hrest =>
      obtain rfl := rest_of_bindOne hone
      rw [leftBehind_cons]
      exact ih hrest

/-- What is left behind parameters that take single words is the rest of the line. -/
theorem remainder_leftBehind (hopen : before.any Parameter.takesRest = false) (line : String) :
    remainder (leftBehind before (words line)) =
      String.ofList (Text.behind ' ' (before.countP Parameter.takesWord) line.toList) := by
  have htoList : String.toList ∘ String.ofList = id := funext fun _ => String.toList_ofList
  rw [leftBehind, hopen, if_neg Bool.false_ne_true, remainder, Text.behind, words, List.map_drop,
    List.map_map, htoList, List.map_id, List.drop_drop, Nat.add_comm]

theorem getElem?_words (line : String) (taken : Nat) :
    (words line)[taken]? = (Text.pieces ' ' line.toList)[taken + 1]?.map String.ofList := by
  rw [words, List.getElem?_map, List.getElem?_drop, Nat.add_comm]

theorem ofList_eq_empty_iff {text : List Char} : String.ofList text = "" ↔ text = [] := by
  rw [← String.toList_inj, String.toList_ofList]
  rfl

/-- A parameter for the remaining text takes what stands behind the words taken before it. -/
theorem accounts_of_remaining {words : List (List Char)} {rest : List String}
    (hopen : before.any Parameter.takesRest = false)
    (h : bindOne call .remaining (leftBehind before (Binding.words call.line)) =
      (.returned (.ok argument), rest)) :
    argument.Accounts call words before .remaining := by
  have hargument : (if remainder (leftBehind before (Binding.words call.line)) = "" then
      Argument.absent
      else .value (.ofText (remainder (leftBehind before (Binding.words call.line))))) =
        argument := Except.ok.inj (Ending.returned.inj (Prod.mk.inj h).1)
  rw [remainder_leftBehind hopen] at hargument
  have hempty : Text.behind ' ' (before.countP Parameter.takesWord) call.line.toList = [] ↔
      ∀ rest, Text.IsBehind ' ' (before.countP Parameter.takesWord) call.line.toList rest →
        rest = [] := Text.behind_eq_nil_iff
  by_cases hnil : Text.behind ' ' (before.countP Parameter.takesWord) call.line.toList = []
  · have hall := hempty.mp hnil
    rw [if_pos (ofList_eq_empty_iff.mpr hnil)] at hargument
    subst hargument
    refine ⟨fun rest hrest hne => ?_, iff_of_true rfl hall⟩
    exact absurd (hall rest hrest) hne
  · rw [if_neg fun heq => hnil (ofList_eq_empty_iff.mp heq)] at hargument
    subst hargument
    refine ⟨fun rest hrest _ => ?_, iff_of_false nofun fun hall => hnil (hempty.mpr hall)⟩
    rw [hrest.behind_eq]

/-- A word is bound to the value that it stands for. -/
theorem holds_of_bindWord {type : ValueType} {word : String}
    (h : bindWord call type word = .returned (.ok argument)) : argument.Holds call type word := by
  unfold bindWord at h
  by_cases htype : type = .text
  · subst htype
    rw [if_pos rfl] at h
    cases h
    exact .text
  · rw [if_neg htype] at h
    obtain ⟨result, hconvert, hargument⟩ := Ending.map_eq_returned_iff.mp h
    cases result with
    | ok value =>
      cases hargument
      obtain ⟨converter, hlookup, hvalue⟩ := ConverterRegistry.exists_of_convert hconvert
      exact .converted htype hlookup hvalue
    | error fault => cases fault <;> cases hargument

theorem ne_absent_of_holds {type : ValueType} {word : String}
    (h : argument.Holds call type word) : argument ≠ .absent := by
  cases h <;> exact nofun

/-- A converted parameter takes the word whose turn it is. -/
theorem accounts_of_converted {type : ValueType} {rest : List String}
    (h : bindOne call (.converted type) (leftBehind before (words call.line)) =
      (.returned (.ok argument), rest)) :
    argument.Accounts call (Text.pieces ' ' call.line.toList) before (.converted type) := by
  by_cases hopen : before.any Parameter.takesRest = true
  · have hleft : leftBehind before (words call.line) = [] := by rw [leftBehind, if_pos hopen]
    rw [hleft] at h
    have habsent : Argument.absent = argument :=
      Except.ok.inj (Ending.returned.inj (Prod.mk.inj h).1)
    rw [Argument.Accounts, if_pos hopen, habsent]
  · have hleft : leftBehind before (words call.line) =
        (words call.line).drop (before.countP Parameter.takesWord) := by
      rw [leftBehind, if_neg hopen]
    have hhead : ((words call.line).drop (before.countP Parameter.takesWord)).head? =
        (words call.line)[before.countP Parameter.takesWord]? := List.head?_drop
    rw [getElem?_words] at hhead
    rw [hleft] at h
    rw [Argument.Accounts, if_neg hopen]
    cases hdrop : (words call.line).drop (before.countP Parameter.takesWord) with
    | nil =>
      rw [hdrop] at h hhead
      have habsent : Argument.absent = argument :=
        Except.ok.inj (Ending.returned.inj (Prod.mk.inj h).1)
      have hnone : (Text.pieces ' ' call.line.toList)[before.countP Parameter.takesWord + 1]? =
          none := Option.map_eq_none_iff.mp hhead.symm
      refine ⟨fun word hword => ?_, iff_of_true habsent.symm (List.getElem?_eq_none_iff.mp hnone)⟩
      rw [hnone] at hword
      cases hword
    | cons word left =>
      rw [hdrop] at h hhead
      have hholds : argument.Holds call type word := holds_of_bindWord (Prod.mk.inj h).1
      obtain ⟨piece, hpiece, hword⟩ := Option.map_eq_some_iff.mp hhead.symm
      refine ⟨fun other hother => ?_, iff_of_false (ne_absent_of_holds hholds) fun hlength => ?_⟩
      · obtain rfl : piece = other := Option.some.inj (hpiece.symm.trans hother)
        rw [hword]
        exact hholds
      · rw [List.getElem?_eq_none_iff.mpr hlength] at hpiece
        cases hpiece

/-- In a signature that is in order nothing that takes the rest of the line stands before a
parameter that does. -/
theorem takesRest_eq_false_of_check
    (h : Signature.check (before ++ parameter :: after) = .ok ())
    (hkind : parameter.kind = .remaining) : before.any Parameter.takesRest = false := by
  have hcount := (Signature.check_eq_ok_iff.mp h).remaining
  rw [Signature.count, List.countP_append, List.countP_cons,
    if_pos (by simpa using hkind)] at hcount
  have hnone : before.countP (fun other => decide (other.kind = .remaining)) = 0 := by omega
  rw [List.countP_eq_zero] at hnone
  apply List.any_eq_false.mpr
  exact hnone

theorem check_of_arguments {arguments : Arguments}
    (h : Binding.arguments call command parameters = .returned (.ok arguments)) :
    Signature.check parameters = .ok () := by
  cases hcheck : Signature.check parameters with
  | ok done => rfl
  | error fault =>
    rw [Binding.arguments, bind, hcheck] at h
    cases h

/-- Where the words of a line can be bound, each parameter has an argument, and all arguments are
accounted for: the message and the client are those of the call, a converted parameter holds what
the word of its turn stands for and is absent exactly where there are not so many words, and a
parameter for the remaining text holds what stands behind the words taken before it, with all its
spaces, and is absent exactly where that is empty. Behind it all converted parameters are absent. -/
theorem arguments_account_for_line {arguments : Arguments}
    (h : Binding.arguments call command parameters = .returned (.ok arguments)) :
    arguments.size = parameters.length ∧
    (∃! words, Text.SplitsInto ' ' call.line.toList words) ∧
    ∀ words, Text.SplitsInto ' ' call.line.toList words →
      ∀ before parameter after, parameters = before ++ parameter :: after →
        ∃ argument, arguments.get? before.length = some argument ∧
          argument.Accounts call words before parameter.kind := by
  have hhanded := handed_of_arguments h
  refine ⟨hhanded.length_eq, Text.existsUnique_splitsInto ' ' call.line.toList, ?_⟩
  intro words hwords before parameter after hparameters
  subst hparameters
  obtain ⟨argument, rest, hget, hone⟩ := hhanded.bindOne_leftBehind
  refine ⟨argument, hget, ?_⟩
  rw [hwords.eq_pieces]
  cases hkind : parameter.kind with
  | message =>
    rw [hkind] at hone
    exact (Except.ok.inj (Ending.returned.inj (Prod.mk.inj hone).1)).symm
  | client =>
    rw [hkind] at hone
    exact (Except.ok.inj (Ending.returned.inj (Prod.mk.inj hone).1)).symm
  | remaining =>
    rw [hkind] at hone
    exact accounts_of_remaining (takesRest_eq_false_of_check (check_of_arguments h) hkind) hone
  | converted type =>
    rw [hkind] at hone
    exact accounts_of_converted hone

def spacedCall : Call :=
  ⟨"/say 5  a b ", { text := some "/say 5  a b " }, .memory, .builtin, 1⟩

/-- The remaining text keeps its spaces, and a text declared behind it is absent. -/
theorem accounts_spacedCall :
    ∃ arguments, Binding.arguments spacedCall "say" [.client, .converted "times" .int32, .message,
        .remaining "words", .converted "more" .text] = .returned (.ok arguments) ∧
      arguments.size = 5 ∧
      (∃ argument, arguments.get? 1 = some argument ∧ argument.Holds spacedCall .int32 "5") ∧
      arguments.get? 3 = some (.value (.ofText " a b ")) ∧
      arguments.get? 4 = some .absent := by
  have hbound : Binding.arguments spacedCall "say" [.client, .converted "times" .int32, .message,
      .remaining "words", .converted "more" .text] =
      .returned (.ok ⟨[.client .memory, .value ⟨.int32, (5 : Int32)⟩,
        .message spacedCall.message, .value (.ofText " a b "), .absent]⟩) := by rfl
  obtain ⟨hsize, _, haccounts⟩ := arguments_account_for_line hbound
  have hsplit : Text.SplitsInto ' ' spacedCall.line.toList
      ["/say".toList, ['5'], [], ['a'], ['b'], []] :=
    ⟨List.cons_ne_nil _ _, by decide, by rfl⟩
  obtain ⟨number, hnumber, hholds, _⟩ := haccounts _ hsplit [.client] _ _ rfl
  obtain ⟨words, hwords, hrest, _⟩ := haccounts _ hsplit
    [.client, .converted "times" .int32, .message] _ _ rfl
  obtain ⟨more, hmore, habsent⟩ := haccounts _ hsplit
    [.client, .converted "times" .int32, .message, .remaining "words"] _ _ rfl
  have hheld : words = .value (.ofText " a b ") :=
    hrest " a b ".toList ⟨"/say 5".toList, rfl, rfl⟩ (by decide)
  exact ⟨_, hbound, hsize, ⟨number, hnumber, hholds _ rfl⟩, hwords.trans (congrArg some hheld),
    hmore.trans (congrArg some habsent)⟩

end Binding

end ChatDispatch
