import ChatDispatch.Config.Reference
import ChatDispatch.Fault
import ChatDispatch.Text.Basic

/-!
How the program ends: its exit code, and what it has printed as results and as errors. Colours are
used where the environment speaks of a terminal that has them and does not ask to go without.
-/

namespace ChatDispatch.Terminal

structure Exit where
  code : Nat := 0
  output : String := ""
  errors : String := ""
  deriving DecidableEq, Repr

def failureCode : Nat := 1
def misuseCode : Nat := 2

def lines (texts : List String) : String := String.join (texts.map (· ++ "\n"))

/-- A text behind a mark, its further lines as far to the right. -/
def indented (mark : String) (text : String) : String :=
  let indent := String.ofList (List.replicate mark.length ' ')
  mark ++ ("\n" ++ indent).intercalate ((Text.pieces '\n' text.toList).map String.ofList)

def causeMark (index : Nat) : String :=
  let number := toString index
  String.ofList (List.replicate (5 - number.length) ' ') ++ number ++ ": "

/-- A report as a failing program shows it; several causes are numbered. -/
def failureText (cause : Cause) : String :=
  let causes := match cause.deeper with
    | [] => []
    | [single] => ["", "Caused by:", indented "    " single]
    | many => "" :: "Caused by:" :: many.zipIdx.map fun (text, index) =>
        indented (causeMark index) text
  lines (("Error: " ++ cause.text) :: causes)

def Exit.failed (output : String) (cause : Cause) : Exit :=
  ⟨failureCode, output, failureText cause⟩

inductive Style where
  | bold
  | red
  | green
  | yellow
  deriving DecidableEq, Repr

def Style.code : Style → String
  | bold => "\x1b[1m"
  | red => "\x1b[31m"
  | green => "\x1b[32m"
  | yellow => "\x1b[33m"

def plainCode : String := "\x1b[0m"

def colourVariables : List String := ["NO_COLOR", "COLORTERM", "TERM"]

def hasColours (environment : Config.Environment) : Bool :=
  (environment "NO_COLOR").isNone &&
    ((environment "COLORTERM").isSome || (environment "TERM").any (· ≠ "dumb"))

def paint (environment : Config.Environment) (style : Style) (text : String) : String :=
  if hasColours environment then style.code ++ text ++ plainCode else text

end ChatDispatch.Terminal
