import ChatDispatch.Config.Reference
import ChatDispatch.Config.Schema
import ChatDispatch.Fault
import ChatDispatch.Yaml.Node

/-!
Loading a config file. What is wrong with a config, and what looks wrong, are remarks that name the
place they are about; only errors make a config invalid. The file is in a directory that the
environment names, else in the home directory, else where the program runs. Its text becomes a value
tree, references to the environment are replaced, the tree becomes a config, the defaults are filled
in, and the result must be valid. Where there is no file the defaults alone are the config.
-/

namespace ChatDispatch.Config

inductive RemarkKind where
  | noPrefix
  | emptyPrefix
  | spaceInPrefix (text : String)
  | duplicatePrefix (text : String)
  | noGroup
  | noBackoff
  | invertedBackoff (initial greatest : Nat)
  deriving DecidableEq, Repr

def RemarkKind.message : RemarkKind → String
  | noPrefix => "At least one command prefix is required"
  | emptyPrefix => "Prefix cannot be empty; it would match every message"
  | spaceInPrefix text => "Prefix '" ++ text ++ "' cannot contain spaces"
  | duplicatePrefix text => "Duplicate prefix '" ++ text ++ "'"
  | noGroup => "groupId is not set; transports that need it will fail"
  | noBackoff => "backoffInitialSecs must be >= 1"
  | invertedBackoff initial greatest =>
    "backoffMaxSecs (" ++ toString greatest ++ ") must not be below backoffInitialSecs (" ++
      toString initial ++ ")"

structure Remark where
  path : String
  kind : RemarkKind
  deriving DecidableEq, Repr

namespace Remark

def message (remark : Remark) : String := remark.kind.message

def sentence (remark : Remark) : String :=
  "Config validation error at '" ++ remark.path ++ "': " ++ remark.message

end Remark

structure Report where
  errors : List Remark := []
  warnings : List Remark := []
  deriving DecidableEq, Repr

def Report.isValid (report : Report) : Bool := report.errors.isEmpty

def prefixPath (index : Nat) : String := "commands.prefixes[" ++ toString index ++ "]"

def prefixErrors (index : Nat) (text : String) : List Remark :=
  if text = "" then [⟨prefixPath index, .emptyPrefix⟩]
  else if text.toList.contains ' ' then [⟨prefixPath index, .spaceInPrefix text⟩]
  else []

def prefixErrorsFrom (index : Nat) : List String → List Remark
  | [] => []
  | text :: rest => prefixErrors index text ++ prefixErrorsFrom (index + 1) rest

/-- A warning for each prefix from a position on that has been seen before. -/
def duplicatesFrom (seen : List String) (index : Nat) : List String → List Remark
  | [] => []
  | text :: rest =>
    (if seen.contains text then [⟨prefixPath index, .duplicatePrefix text⟩] else []) ++
      duplicatesFrom (text :: seen) (index + 1) rest

def commandErrors (commands : CommandSection) : List Remark :=
  if commands.prefixes.isEmpty then [⟨"commands.prefixes", .noPrefix⟩]
  else prefixErrorsFrom 0 commands.prefixes

def pollErrors (poll : PollSection) : List Remark :=
  (if poll.backoffInitial = some 0 then [⟨"poll.backoffInitialSecs", .noBackoff⟩] else []) ++
  match poll.backoffInitial, poll.backoffMax with
  | some initial, some greatest =>
    if greatest < initial then [⟨"poll.backoffMaxSecs", .invertedBackoff initial greatest⟩]
    else []
  | _, _ => []

def sourceWarnings (source : SourceSection) : List Remark :=
  if source.group = 0 then [⟨"source.groupId", .noGroup⟩] else []

def report (config : Config) : Report where
  errors := commandErrors config.commands ++ pollErrors config.poll
  warnings := duplicatesFrom [] 0 config.commands.prefixes ++ sourceWarnings config.source

/-- A path seen from a directory; an absolute path stays as it is. -/
def joinPath (directory path : String) : String :=
  if path.startsWith "/" || directory = "" then path
  else if directory.endsWith "/" then directory ++ path
  else directory ++ "/" ++ path

def directoryVariable : String := "CHATCMD_CONFIG_DIR"

def homeVariable : String := "HOME"
def homeDirectory : String := ".chatcmd"

/-- The directory of the config file; an empty one that is named counts, an empty home does not. -/
def directory (environment : Environment) : String :=
  match environment directoryVariable, environment.value? homeVariable with
  | some named, _ => named
  | none, some home => joinPath home homeDirectory
  | none, none => homeDirectory

def filePath (directory : String) : String := joinPath directory "config.yaml"

inductive FileState where
  | absent
  | unreadable (reason : String)
  | text (content : String)
  deriving DecidableEq, Repr

inductive LoadFault where
  | unreadable (reason : String)
  | malformed (fault : Yaml.Fault)
  | missingVariable (missing : MissingVariable)
  | wrongStructure (mismatch : Mismatch)
  | invalid (first : Remark) (rest : List Remark)
  deriving Repr

def LoadFault.report (path : String) : LoadFault → Cause
  | unreadable reason => ⟨"Failed to read config file: " ++ path, [reason]⟩
  | malformed fault => ⟨"Failed to parse config YAML at: " ++ path, [fault.message]⟩
  | missingVariable missing => ⟨"Failed to resolve env vars in config", [missing.message]⟩
  | wrongStructure mismatch => ⟨"Invalid config structure in " ++ path, [mismatch.message]⟩
  | invalid first rest =>
    ⟨"config at " ++ path ++ " has " ++ toString (rest.length + 1) ++ " error(s): " ++
      first.sentence, []⟩

/-- The value tree in a file, if there is one; an empty document is an empty object. -/
def readTree : FileState → Except LoadFault (Option Json)
  | .absent => .ok none
  | .unreadable reason => .error (.unreadable reason)
  | .text content =>
    match Yaml.parse content with
    | .ok .null => .ok (some Json.emptyObject)
    | .ok tree => .ok (some tree)
    | .error fault => .error (.malformed fault)

/-- The config in a tree, without its defaults. -/
def ofReferringTree (environment : Environment) (tree : Json) : Except LoadFault Config := do
  let tree ← (resolve environment tree).mapError .missingVariable
  (ofTree tree).mapError .wrongStructure

def prepare (config : Config) : Except LoadFault Config :=
  let config := config.withDefaults
  match config.report.errors with
  | [] => .ok config
  | first :: rest => .error (.invalid first rest)

def load (environment : Environment) (file : FileState) : Except LoadFault Config := do
  match ← readTree file with
  | none => prepare {}
  | some tree => prepare (← ofReferringTree environment tree)

end ChatDispatch.Config
