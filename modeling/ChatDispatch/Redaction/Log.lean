import ChatDispatch.Text.Basic

/-!
Secrets in log lines. Three rules run one after the other: values of parameters named for a token
or key, credentials behind the word `Bearer`, and service tokens.
-/

namespace ChatDispatch.Redaction

open Text

def secretNames : List (List Char) :=
  ["access_token".toList, "token".toList, "key".toList]

def isValueChar (c : Char) : Bool := c ≠ '&' && !isBlank c

def isCredentialChar (c : Char) : Bool :=
  c.isAlphanum || c == '-' || c == '.' || c == '_' || c == '~' || c == '+' || c == '/'

def isServiceChar (c : Char) : Bool := c.isAlphanum || c == '_' || c == '-'

/-- What follows a parameter name, its equals sign and a value that is not empty. -/
def parameterRest? (name text : List Char) : Option (List Char) :=
  match dropStart? (name ++ ['=']) text with
  | some (c :: rest) => if isValueChar c then some (rest.dropWhile isValueChar) else none
  | _ => none

def applyParameter (text : List Char) : Option (List Char × List Char) :=
  secretNames.findSome? fun name =>
    (parameterRest? name text).map fun rest => (name ++ "=[REDACTED]".toList, rest)

def applyBearer (text : List Char) : Option (List Char × List Char) :=
  match dropStart? "Bearer".toList text with
  | some (b :: rest) =>
    if isBlank b then
      match rest.dropWhile isBlank with
      | c :: rest =>
        if isCredentialChar c then
          some ("Bearer [REDACTED_TOKEN]".toList,
            (rest.dropWhile isCredentialChar).dropWhile (· == '='))
        else none
      | [] => none
    else none
  | _ => none

def serviceLength : Nat := 16

def applyService (text : List Char) : Option (List Char × List Char) :=
  match dropStart? "vk1.a.".toList text with
  | some rest =>
    if serviceLength ≤ (rest.takeWhile isServiceChar).length then
      some ("[REDACTED_TOKEN]".toList, rest.dropWhile isServiceChar)
    else none
  | none => none

theorem length_dropWhile_le (p : Char → Bool) (text : List Char) :
    (text.dropWhile p).length ≤ text.length :=
  (List.dropWhile_suffix p).length_le

theorem length_of_dropStart? {start text rest : List Char} (h : dropStart? start text = some rest) :
    text.length = start.length + rest.length := by
  rw [dropStart?_eq_some_iff.1 h, List.length_append]

theorem parameterRest?_consumes {name text rest : List Char}
    (h : parameterRest? name text = some rest) : rest.length < text.length := by
  unfold parameterRest? at h
  split at h
  · rename_i c after hd
    have := length_of_dropStart? hd
    split at h
    · cases h
      have := length_dropWhile_le isValueChar after
      simp only [List.length_append, List.length_cons, List.length_nil] at *
      omega
    · cases h
  · cases h

theorem applyParameter_consumes {text replacement rest : List Char}
    (h : applyParameter text = some (replacement, rest)) : rest.length < text.length := by
  obtain ⟨name, _, hn⟩ := List.exists_of_findSome?_eq_some h
  obtain ⟨after, ha, he⟩ := Option.map_eq_some_iff.1 hn
  cases he
  exact parameterRest?_consumes ha

theorem applyBearer_consumes {text replacement rest : List Char}
    (h : applyBearer text = some (replacement, rest)) : rest.length < text.length := by
  unfold applyBearer at h
  split at h
  · rename_i b after hd
    have := length_of_dropStart? hd
    split at h
    · split at h
      · rename_i c more hm
        split at h
        · cases h
          have hb := length_dropWhile_le isBlank after
          rw [hm] at hb
          have h1 := length_dropWhile_le isCredentialChar more
          have h2 := length_dropWhile_le (· == '=') (more.dropWhile isCredentialChar)
          simp only [List.length_cons] at *
          omega
        · cases h
      · cases h
    · cases h
  · cases h

theorem applyService_consumes {text replacement rest : List Char}
    (h : applyService text = some (replacement, rest)) : rest.length < text.length := by
  unfold applyService at h
  split at h
  · rename_i after hd
    have hl := length_of_dropStart? hd
    split at h
    · cases h
      have := length_dropWhile_le isServiceChar after
      have : "vk1.a.".toList.length = 6 := rfl
      omega
    · cases h
  · cases h

def parameterRule : Rule := ⟨applyParameter, applyParameter_consumes⟩
def bearerRule : Rule := ⟨applyBearer, applyBearer_consumes⟩
def serviceRule : Rule := ⟨applyService, applyService_consumes⟩

def redactText (text : List Char) : List Char :=
  serviceRule.replaceAll (bearerRule.replaceAll (parameterRule.replaceAll text))

def redactLine (line : String) : String :=
  String.ofList (redactText line.toList)

end ChatDispatch.Redaction
