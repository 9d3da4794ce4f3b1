import ChatDispatch.Config.Load
import ChatDispatch.Demo.Basics
import ChatDispatch.Json.Printer
import ChatDispatch.Listening.Lines
import ChatDispatch.Listening.Loop
import ChatDispatch.Redaction.Config
import ChatDispatch.Terminal.Exit
import ChatDispatch.Terminal.Invocation

/-!
Performing what a command line asks for. A check reads a config file as it would be read to run, and
prints everything there is to say about it, the secrets in it hidden. A session serves the basic
commands to the lines of the input: replies are printed as results, failures as errors.
-/

namespace ChatDispatch.Terminal

open Config

def variableLines (environment : Environment) (names : List String) : List String :=
  if names.isEmpty then []
  else "Environment variables:" :: names.map fun name =>
    let mark := if (environment.value? name).isSome then paint environment .green "set    "
      else paint environment .red "missing"
    "  " ++ mark ++ " " ++ name

def remarkLine (mark : String) (remark : Remark) : String :=
  "  " ++ mark ++ " " ++ remark.path ++ ": " ++ remark.message

def reportLines (environment : Environment) (report : Report) : List String :=
  report.warnings.map (remarkLine (paint environment .yellow "warning")) ++
    report.errors.map (remarkLine (paint environment .red "error  "))

def shownConfig (config : Config) : String :=
  (Redaction.redactTree config.tree).pretty

/-- The report on a failed check: unlike in a load, a missing variable stands for itself. -/
def checkFailure (path : String) : LoadFault → Cause
  | .missingVariable missing => ⟨missing.message, []⟩
  | fault => fault.report path

def checkTree (environment : Environment) (path : String) (before : List String) (tree : Json) :
    Exit :=
  let before := before ++ variableLines environment (referencedVariables tree)
  match ofReferringTree environment tree with
  | .error fault => .failed (lines before) (checkFailure path fault)
  | .ok config =>
    let config := config.withDefaults
    let report := config.report
    let shown := before ++ reportLines environment report ++ [shownConfig config]
    if report.isValid then
      { output := lines (shown ++ [paint environment .green "Config OK"]) }
    else
      .failed (lines shown) ⟨toString report.errors.length ++ " config error(s)", []⟩

def check (environment : Environment) (path : String) (file : FileState) : Exit :=
  let title := paint environment .bold ("Checking " ++ path)
  match readTree file with
  | .error fault => .failed (lines [title]) (checkFailure path fault)
  | .ok none =>
    { output := lines
        [title, "  " ++ paint environment .yellow "no config file found, defaults apply"] }
  | .ok (some tree) => checkTree environment path [title] tree

def defaultPeer : Int := 1

def home : String := "chatcmd"

/-- How deep dispatches may be nested; the basic commands dispatch nothing themselves. -/
def dispatchDepth : Nat := 8

/-- What the lines of the input are stamped with: the sender is the conversation itself unless it
is named. -/
def inputStamp (config : Config) (peer sender : Option Int) : LineStamp :=
  let peer := (peer.or config.source.peer).getD defaultPeer
  ⟨config.source.group, peer, sender.getD peer⟩

def failureLine (environment : Environment) (failure : Failure) : String :=
  paint environment .red ("[" ++ failure.fault.stage.name ++ "]") ++ " " ++ failure.line ++ ": " ++
    failure.fault.message

def replyLine (peer : Int) (text : String) : String :=
  "[" ++ Text.decimal peer ++ "] " ++ text

def serve (source : Source) : Action (Except Fault (List String)) := do
  match ← Demo.register home with
  | .error fault => return .error fault
  | .ok names => do
    Processor.observe 0
    Listening.listen dispatchDepth (fun _ => true) {} source
    return .ok names

def replyLines (journal : List Entry) : List String :=
  journal.filterMap fun entry =>
    match entry with
    | .replied peer text => some (replyLine peer text)
    | _ => none

def failureLines (environment : Environment) (journal : List Entry) : List String :=
  journal.filterMap fun entry =>
    match entry with
    | .observed _ failure => some (failureLine environment failure)
    | _ => none

def session (environment : Environment) (config : Config) (peer sender : Option Int)
    (input : List UInt8) : Exit :=
  let source := Source.ofBytes (inputStamp config peer sender) input
  let run := serve source (Processor.new config.settings .console)
  let output := lines (replyLines run.journal)
  match run.ending with
  | .returned (.error fault) => .failed output fault.report
  | _ => ⟨0, output, lines (failureLines environment run.journal)⟩

def runSession (environment : Environment) (path : String) (file : FileState)
    (peer sender : Option Int) (input : List UInt8) : Exit :=
  match load environment file with
  | .error fault => .failed "" (fault.report path)
  | .ok config => session environment config peer sender input

def versionLine : String := "chatcmd 0.1.0"

def refuse : Refusal → Exit
  | .help topic => { output := topic.text }
  | .version => { output := lines [versionLine] }
  | .misuse => { code := misuseCode, errors := Topic.program.text }

def configPath (environment : Environment) (invocation : Invocation) : String :=
  invocation.config.getD (filePath (directory environment))

/-- The variables that count whatever a config refers to. -/
def knownVariables : List String := [directoryVariable, homeVariable] ++ colourVariables

def fileVariables (file : FileState) : List String :=
  match readTree file with
  | .ok (some tree) => referencedVariables tree
  | _ => []

/-- Perform an invocation; `file` is what is found at its path. -/
def perform (environment : Environment) (invocation : Invocation) (file : FileState)
    (input : List UInt8) : Exit :=
  let path := configPath environment invocation
  match invocation.task with
  | .run => runSession environment path file invocation.peer invocation.sender input
  | .check => check environment path file
  | .commands => { output := lines Demo.catalog }

end ChatDispatch.Terminal
