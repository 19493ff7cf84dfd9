import OnePass.CommandLine.Response

/-! # The program

    Runs a command line on the files of the system. -/

namespace OnePass

/-- A system's error as a reason why a file cannot be used. -/
def FileFault.ofSystem : IO.Error → FileFault
  | .noFileOrDirectory ..             => .notFound
  | .inappropriateType _ code details =>
    if code = 20 then .notDirectory
    else if code = 21 then .isDirectory
    else .other (details ++ " (os error " ++ decimal code.toNat ++ ")")
  | .permissionDenied _ code details  =>
    .other (details ++ " (os error " ++ decimal code.toNat ++ ")")
  | e                                 => .other (toString e)

/-- Run an action that may be refused. -/
def attemptFile {α : Type} (action : IO α) : IO (Except FileFault α) := do
  try
    return .ok (← action)
  catch e =>
    return .error (.ofSystem e)

/-- Does the path lead to a file? -/
def isRegularFile (path : String) : IO Bool := do
  try
    return (← (← IO.FS.realPath path).metadata).type == .file
  catch _ =>
    return false

instance : FileAccess IO where
  isFile := isRegularFile
  read path := attemptFile do return (← IO.FS.readBinFile path).data.toList
  write path content := attemptFile (IO.FS.writeBinFile path ⟨content.toArray⟩)
  remove path := attemptFile (IO.FS.removeFile path)

end OnePass

/-- Answer the command line.  The variable `RUST_LOG` names the threshold of
    the log. -/
def main (args : List String) : IO UInt32 := do
  let response ← OnePass.CommandLine.respond args (← IO.getEnv "RUST_LOG")
  (← IO.getStderr).putStr response.err
  (← IO.getStdout).putStr response.out
  return response.status.toUInt32
