import ChatDispatch.Text.Basic

/-!
Which command a text names. A text is a command if it starts with one of the configured prefixes;
the command word goes up to the first space, and its name is what is left of the word without a
prefix. The two modes differ in which prefix is taken off, and where. The settings of a processor
have both, and every default filled in.
-/

namespace ChatDispatch

inductive PrefixMode where
  /-- The first prefix that the word starts with, at its start. -/
  | leading
  /-- The first prefix that occurs in the word, at its leftmost place. -/
  | firstOccurrence
  deriving DecidableEq, Repr, Inhabited

namespace Detection

open Text

def commandWord (text : List Char) : List Char :=
  text.takeWhile (· ≠ ' ')

def usable (prefixes : List (List Char)) : List (List Char) :=
  prefixes.filter (!·.isEmpty)

def isPrefixed (prefixes : List (List Char)) (text : List Char) : Bool :=
  (usable prefixes).any (startsWith · text)

/-- The word without the first prefix that it starts with. -/
def dropLeading? (prefixes : List (List Char)) (word : List Char) : Option (List Char) :=
  (usable prefixes).findSome? (dropStart? · word)

/-- The word without the first prefix that occurs in it, or the word itself if none does. -/
def dropOccurrence (prefixes : List (List Char)) (word : List Char) : List Char :=
  match (usable prefixes).findSome? (cutFirst? · word) with
  | some (before, after) => before ++ after
  | none => word

/-- The command name in a text, if the text is a command and a name is left. -/
def commandName? (prefixes : List (List Char)) (mode : PrefixMode) (text : List Char) :
    Option (List Char) :=
  if isPrefixed prefixes text then
    let word := commandWord text
    let name? := match mode with
      | .leading => dropLeading? prefixes word
      | .firstOccurrence => some (dropOccurrence prefixes word)
    name?.filter (!·.isEmpty)
  else none

end Detection

def detect? (prefixes : List String) (mode : PrefixMode) (text : String) : Option String :=
  (Detection.commandName? (prefixes.map String.toList) mode text.toList).map String.ofList

/-- The settings of a processor; times are in milliseconds. -/
structure Settings where
  prefixes : List String := ["/"]
  mode : PrefixMode := .leading
  group : Nat := 0
  backoffInitial : Nat := 1000
  backoffMax : Nat := 60000
  deriving DecidableEq, Repr

def Settings.detect? (settings : Settings) (text : String) : Option String :=
  ChatDispatch.detect? settings.prefixes settings.mode text

end ChatDispatch
