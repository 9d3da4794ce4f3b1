import ChatDispatch.Json.Basic

/-!
Secrets in config trees. The key that is nearest above a text decides whether the text is secret;
of a long secret a short hint is kept, so that secrets can be told apart.
-/

namespace ChatDispatch.Redaction

def secretKeys : List String :=
  ["accesstoken", "access_token", "token", "apikey", "api_key", "secret", "password"]

def isSecretKey (key : String) : Bool :=
  secretKeys.contains (String.ofList (key.toList.map Char.toLower))

/-- The length of a hint, and the longest secret that is hidden whole. -/
def hintLength : Nat := 4
def hiddenLength : Nat := 8

/-- What is shown of a secret; an empty text has nothing to hide. -/
def maskText (secret : List Char) : List Char :=
  if secret.isEmpty then []
  else if hiddenLength < secret.length then secret.take hintLength ++ "***".toList
  else "***".toList

mutual

/-- A tree with its secrets masked, `isSecret` saying so of the texts that are not under a key of
their own. -/
def maskUnder (isSecret : Bool) : Json → Json
  | .text s => if isSecret then .text (String.ofList (maskText s.toList)) else .text s
  | .array items => .array (maskItems isSecret items)
  | .object entries => .object (maskEntries entries)
  | other => other

def maskItems (isSecret : Bool) : List Json → List Json
  | [] => []
  | item :: rest => maskUnder isSecret item :: maskItems isSecret rest

def maskEntries : List (String × Json) → List (String × Json)
  | [] => []
  | (key, value) :: rest => (key, maskUnder (isSecretKey key) value) :: maskEntries rest

end

def redactTree (tree : Json) : Json := maskUnder false tree

end ChatDispatch.Redaction
