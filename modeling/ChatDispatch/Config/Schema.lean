import ChatDispatch.Detection
import ChatDispatch.Message.Wire

/-!
The config of a bot. Every part of it may be left out of a config file; what the processor is run
with falls back to the defaults of `Settings`. The defaults can be written into the config itself.
-/

namespace ChatDispatch

open Text (Bounds)

structure CommandSection where
  prefixes : List String := []
  mode : Option PrefixMode := none
  deriving DecidableEq, Repr

structure SourceSection where
  group : Nat := 0
  token : Option String := none
  peer : Option Int := none
  deriving DecidableEq, Repr

/-- The waits after transport errors, in seconds. -/
structure PollSection where
  backoffInitial : Option Nat := none
  backoffMax : Option Nat := none
  deriving DecidableEq, Repr

structure LoggingSection where
  level : Option String := none
  directory : Option String := none
  json : Option Bool := none
  deriving DecidableEq, Repr

structure Config where
  commands : CommandSection := {}
  source : SourceSection := {}
  poll : PollSection := {}
  logging : LoggingSection := {}
  deriving DecidableEq, Repr

def PrefixMode.name : PrefixMode → String
  | leading => "leading"
  | firstOccurrence => "firstOccurrence"

def PrefixMode.all : List PrefixMode := [.leading, .firstOccurrence]

namespace Config

def commandFields : Fields :=
  .cons "prefixes" false (.list .text) <|
  .cons "prefixMode" false (.optional (.choice (PrefixMode.all.map PrefixMode.name))) .nil

def sourceFields : Fields :=
  .cons "groupId" false countShape <|
  .cons "accessToken" false (.optional .text) <|
  .cons "peerId" false (.optional identifierShape) .nil

def pollFields : Fields :=
  .cons "backoffInitialSecs" false (.optional countShape) <|
  .cons "backoffMaxSecs" false (.optional countShape) .nil

def loggingFields : Fields :=
  .cons "level" false (.optional .text) <|
  .cons "dir" false (.optional .path) <|
  .cons "json" false (.optional .flag) .nil

def fields : Fields :=
  .cons "commands" false (.record "CommandsSection" commandFields) <|
  .cons "source" false (.record "SourceConfig" sourceFields) <|
  .cons "poll" false (.record "PollConfig" pollFields) <|
  .cons "logging" false (.record "LoggingConfig" loggingFields) .nil

def shape : Shape := .record "BotConfig" fields

def ofCommandFields : commandFields.Carrier → CommandSection
  | (prefixes, mode, ()) =>
    ⟨prefixes, Option.bind mode fun (number : Nat) => PrefixMode.all[number]?⟩

def ofSourceFields : sourceFields.Carrier → SourceSection
  | (group, token, peer, ()) => ⟨Int.toNat group, token, peer⟩

def ofPollFields : pollFields.Carrier → PollSection
  | (initial, greatest, ()) => ⟨Option.map Int.toNat initial, Option.map Int.toNat greatest⟩

def ofLoggingFields : loggingFields.Carrier → LoggingSection
  | (level, directory, json, ()) => ⟨level, directory, json⟩

def ofFields : fields.Carrier → Config
  | (commands, source, poll, logging, ()) =>
    ⟨ofCommandFields commands, ofSourceFields source, ofPollFields poll, ofLoggingFields logging⟩

def ofTree (tree : Json) : Except Mismatch Config :=
  (shape.ofTree tree).map ofFields

/-- An entry that is left out where it has no value. -/
def entry? {α : Type} (key : String) (tree : α → Json) (value : Option α) :
    List (String × Json) :=
  (value.map fun value => (key, tree value)).toList

def tree (config : Config) : Json :=
  .ofEntries
    [ ("commands", .ofEntries <|
        ("prefixes", .array (config.commands.prefixes.map .text)) ::
          entry? "prefixMode" (.text ∘ PrefixMode.name) config.commands.mode),
      ("source", .ofEntries <|
        ("groupId", .int config.source.group) ::
          entry? "accessToken" .text config.source.token ++
          entry? "peerId" .int config.source.peer),
      ("poll", .ofEntries <|
        entry? "backoffInitialSecs" (fun n => .int n) config.poll.backoffInitial ++
          entry? "backoffMaxSecs" (fun n => .int n) config.poll.backoffMax),
      ("logging", .ofEntries <|
        entry? "level" .text config.logging.level ++
          entry? "dir" .text config.logging.directory ++
          entry? "json" .bool config.logging.json) ]

def settings (config : Config) : Settings :=
  let fallback : Settings := {}
  { prefixes :=
      if config.commands.prefixes.isEmpty then fallback.prefixes else config.commands.prefixes
    mode := config.commands.mode.getD fallback.mode
    group := config.source.group
    backoffInitial := (config.poll.backoffInitial.map (· * 1000)).getD fallback.backoffInitial
    backoffMax := (config.poll.backoffMax.map (· * 1000)).getD fallback.backoffMax }

def defaultPrefix : String := "/"
def defaultBackoffInitial : Nat := 1
def defaultBackoffMax : Nat := 60
def defaultLogLevel : String := "info"

def withDefaults (config : Config) : Config where
  commands :=
    { prefixes :=
        if config.commands.prefixes.isEmpty then [defaultPrefix] else config.commands.prefixes
      mode := some (config.commands.mode.getD .leading) }
  source := config.source
  poll :=
    { backoffInitial := some (config.poll.backoffInitial.getD defaultBackoffInitial)
      backoffMax := some (config.poll.backoffMax.getD defaultBackoffMax) }
  logging :=
    { level := some (config.logging.level.getD defaultLogLevel)
      directory := config.logging.directory
      json := some (config.logging.json.getD false) }

end Config

end ChatDispatch
