import ChatDispatch.Terminal.Perform

/-!
The program: words, variables, a file and the input in, texts and an exit code out.
-/

namespace ChatDispatch.Terminal

/-- The system's number for a directory that is read as a file. -/
def directoryCode : UInt32 := 21

/-- What is found at a path; below a file there is nothing. -/
def fileAt (path : String) : IO Config.FileState := do
  try
    let bytes ← IO.FS.readBinFile path
    match Text.decodeUtf8 bytes.toList with
    | .ok text => return .text (String.ofList text)
    | .error _ => return .unreadable "stream did not contain valid UTF-8"
  catch problem =>
    match problem with
    | .noFileOrDirectory .. => return .absent
    | .inappropriateType _ code _ =>
      if code = directoryCode then return .unreadable "Is a directory (os error 21)"
      else return .absent
    | .permissionDenied .. => return .unreadable "Permission denied (os error 13)"
    | other => return .unreadable (toString other)

def environmentOf (names : List String) : IO Config.Environment := do
  let entries ← names.mapM fun name => do
    return (← IO.getEnv name).map ((name, ·))
  return .ofEntries (entries.filterMap id)

def input : IO (List UInt8) := do
  return (← (← IO.getStdin).readBinToEnd).toList

end ChatDispatch.Terminal

open ChatDispatch Terminal

def main (words : List String) : IO UInt32 := do
  let exit ← match Invocation.ofWords words with
    | .error refusal => pure (refuse refusal)
    | .ok invocation =>
      let known ← environmentOf knownVariables
      let file ← match invocation.task with
        | .commands => pure .absent
        | _ => fileAt (configPath known invocation)
      let environment ← environmentOf (knownVariables ++ fileVariables file)
      let bytes ← match invocation.task with
        | .run => input
        | _ => pure []
      pure (perform environment invocation file bytes)
  (← IO.getStdout).putStr exit.output
  (← IO.getStderr).putStr exit.errors
  return exit.code.toUInt32
