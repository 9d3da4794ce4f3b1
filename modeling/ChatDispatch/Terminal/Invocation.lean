import ChatDispatch.Terminal.Exit
import ChatDispatch.Text.Basic
import ChatDispatch.Text.Numeral

/-!
The command line: which command is to be performed, with which options. The config option may stand
before the command or behind it, and the one behind it counts; no option may be given twice in the
same place. Those who ask for help are told what the program or one of its commands is for, how it
is called, and what may stand behind it.
-/

namespace ChatDispatch.Terminal

open Text

inductive Task where
  | run
  | check
  | commands
  deriving DecidableEq, Repr

def Task.name : Task → String
  | run => "run"
  | check => "check"
  | commands => "commands"

def Task.all : List Task := [.run, .check, .commands]

def Task.ofName? (name : String) : Option Task := Task.all.find? (·.name == name)

inductive Topic where
  | program
  | task (task : Task)
  | help
  deriving DecidableEq, Repr

/-- The topic that the words behind `help` name: none for the program, or one command. -/
def Topic.ofWords? : List String → Option Topic
  | [] => some .program
  | [name] => if name = "help" then some .help else (Task.ofName? name).map .task
  | _ => none

structure Invocation where
  task : Task
  config : Option String := none
  peer : Option Int := none
  sender : Option Int := none
  deriving DecidableEq, Repr

/-- Why nothing is performed: help or the version is asked for, or the line is not understood. -/
inductive Refusal where
  | help (topic : Topic)
  | version
  | misuse
  deriving DecidableEq, Repr

inductive ValueOption where
  | config
  | peer
  | sender
  deriving DecidableEq, Repr

inductive OptionKind where
  | taking (kind : ValueOption)
  | help
  | version

structure Draft where
  task : Option Task := none
  outerConfig : Option String := none
  innerConfig : Option String := none
  peer : Option Int := none
  sender : Option Int := none

namespace Draft

def long? (line : Draft) (name : String) : Option OptionKind :=
  match name, line.task with
  | "config", _ => some (.taking .config)
  | "help", _ => some .help
  | "version", none => some .version
  | "peer-id", some .run => some (.taking .peer)
  | "from-id", some .run => some (.taking .sender)
  | _, _ => none

def short? (line : Draft) (letter : Char) : Option OptionKind :=
  match letter, line.task with
  | 'c', _ => some (.taking .config)
  | 'h', _ => some .help
  | 'V', none => some .version
  | _, _ => none

def fill {α : Type} (slot : Option α) (value : Option α) : Except Refusal (Option α) :=
  if slot.isSome || value.isNone then .error .misuse else .ok value

def number? (text : String) : Option Int :=
  (readNumeral 10 Bounds.int64 text.toList).toOption

/-- Set an option; a path must not be empty and a number has to be one. -/
def set (line : Draft) (kind : ValueOption) (text : String) : Except Refusal Draft := do
  let path? := if text = "" then none else some text
  match kind, line.task with
  | .config, none => return { line with outerConfig := ← fill line.outerConfig path? }
  | .config, some _ => return { line with innerConfig := ← fill line.innerConfig path? }
  | .peer, _ => return { line with peer := ← fill line.peer (number? text) }
  | .sender, _ => return { line with sender := ← fill line.sender (number? text) }

/-- A word that is an option, or would be, and so no value of one. -/
def isOptionLike : List Char → Bool
  | '-' :: _ :: _ => true
  | _ => false

def splitLong (word : List Char) : String × Option String :=
  match cutFirst? ['='] word with
  | some (name, value) => (String.ofList name, some (String.ofList value))
  | none => (String.ofList word, none)

/-- What is to be done about a word: go on, set an option to the next word, end the line, take all
further words for a topic of help, or stop. -/
inductive Reading where
  | goOn (line : Draft)
  | setNext (kind : ValueOption)
  | onlyEnd
  | topic
  | stop (refusal : Refusal)

def readValue (line : Draft) (kind : ValueOption) : Option String → Reading
  | none => .setNext kind
  | some text =>
    match line.set kind text with
    | .ok line => .goOn line
    | .error refusal => .stop refusal

def helpTopic (line : Draft) : Topic := (line.task.map .task).getD .program

def readOption (line : Draft) (option : Option OptionKind) (value : Option String) : Reading :=
  match option, value with
  | some (.taking kind), value => line.readValue kind value
  | some .help, none => .stop (.help line.helpTopic)
  | some .version, none => .stop .version
  | _, _ => .stop .misuse

def read (line : Draft) (word : String) : Reading :=
  match word.toList with
  | ['-', '-'] => .onlyEnd
  | '-' :: '-' :: rest =>
    let (name, value) := splitLong rest
    line.readOption (line.long? name) value
  | '-' :: letter :: rest =>
    match line.short? letter, rest with
    | some (.taking kind), [] => .setNext kind
    | some (.taking kind), '=' :: value => line.readValue kind (some (String.ofList value))
    | some (.taking kind), value => line.readValue kind (some (String.ofList value))
    | option, _ => line.readOption option none
  | _ =>
    match line.task, Task.ofName? word with
    | none, some task => .goOn { line with task }
    | none, none => if word = "help" then .topic else .stop .misuse
    | some _, _ => .stop .misuse

/-- Read the words of a command line, the value of an option first if one is due. -/
def readAll (line : Draft) (due : Option ValueOption) : List String → Except Refusal Draft
  | [] => if due.isSome then .error .misuse else .ok line
  | word :: rest =>
    match due with
    | some kind =>
      if isOptionLike word.toList then .error .misuse
      else do readAll (← line.set kind word) none rest
    | none =>
      match line.read word with
      | .goOn line => readAll line none rest
      | .setNext kind => readAll line (some kind) rest
      | .onlyEnd => if rest.isEmpty then .ok line else .error .misuse
      | .topic => .error (((Topic.ofWords? rest).map .help).getD .misuse)
      | .stop refusal => .error refusal

end Draft

def Invocation.ofWords (words : List String) : Except Refusal Invocation := do
  let line ← Draft.readAll {} none words
  match line.task with
  | some task =>
    return ⟨task, line.innerConfig.or line.outerConfig, line.peer, line.sender⟩
  | none => throw .misuse

/-- The rows of a table: what is explained, filled up to one width, and the explanation. -/
def table (rows : List (String × String)) : List String :=
  let width := (rows.map (·.1.length)).foldl max 0
  rows.map fun (subject, meaning) =>
    let gap := List.replicate (width - subject.length + 2) ' '
    "  " ++ subject ++ String.ofList gap ++ meaning

def Task.purpose : Task → String
  | run => "Dispatch commands read from stdin, one message per line"
  | check => "Validate the config file and print it with secrets redacted"
  | commands => "List the built-in commands"

def configRow : String × String :=
  ("-c, --config <CONFIG>", "Config file (defaults to ~/.chatcmd/config.yaml)")

def helpRow : String × String := ("-h, --help", "Print help")

def Task.options : Task → List (String × String)
  | run =>
    [ configRow,
      ("    --peer-id <PEER_ID>", "Conversation id stamped on each message"),
      ("    --from-id <FROM_ID>", "Sender id stamped on each message (defaults to the peer id)"),
      helpRow ]
  | check => [configRow, helpRow]
  | commands => [configRow, helpRow]

def helpPurpose : String := "Print this message or the help of the given subcommand(s)"

def Topic.text : Topic → String
  | program =>
    let commands := Task.all.map fun task => (task.name, task.purpose)
    lines <|
      [ "Typed text commands for chat bots", "", "Usage: chatcmd [OPTIONS] <COMMAND>", "",
        "Commands:" ] ++
      table (commands ++ [("help", helpPurpose)]) ++
      ["", "Options:"] ++
      table [configRow, helpRow, ("-V, --version", "Print version")]
  | task t =>
    lines <|
      [t.purpose, "", "Usage: chatcmd " ++ t.name ++ " [OPTIONS]", "", "Options:"] ++
      table t.options
  | help =>
    lines <|
      [helpPurpose, "", "Usage: chatcmd help [COMMAND]...", "", "Arguments:"] ++
      table [("[COMMAND]...", "Print help for the subcommand(s)")]

end ChatDispatch.Terminal
