import QueryCompiler.CommandLine.Program

/-!
# The executable

Answers the program's questions from the machine that it runs on.
-/

namespace QueryCompiler.CommandLine

/-- The fault that an error of the machine is. -/
def PathFault.ofError : IO.Error → PathFault
  | .noFileOrDirectory .. => .notFound
  | .alreadyExists .. => .alreadyThere
  | .permissionDenied .. => .noPermission
  | .inappropriateType _ code _ => if code = 20 then .notDirectory else .isDirectory
  | error => .other (toString error)

/-- What an action on a path gives. -/
def attempt {α : Type} (action : IO α) : IO (Except PathFault α) := do
  try return .ok (← action)
  catch error => return .error (PathFault.ofError error)

/-- The text that some bytes are. -/
def textOf (bytes : ByteArray) : Except PathFault String :=
  match String.fromUTF8? bytes with
  | some text => .ok text
  | none => .error .notText

/-- The rest of a stream behind some bytes. -/
partial def readAll (stream : IO.FS.Stream) (before : ByteArray) : IO ByteArray := do
  let bytes ← stream.read 65536
  if bytes.isEmpty then return before else readAll stream (before ++ bytes)

/-- The machine that the program runs on. -/
def World.machine : World IO where
  read path := return (← attempt (IO.FS.readBinFile path)).bind textOf
  input := do return (← attempt (readAll (← IO.getStdin) .empty)).bind textOf
  environment name := IO.getEnv name
  makeDirectory path := do
    if path = "" then return .ok () else attempt (IO.FS.createDirAll path)

end QueryCompiler.CommandLine

/-- Runs the program on the machine. -/
def main (args : List String) : IO UInt32 := do
  let outcome ← QueryCompiler.CommandLine.run .machine args
  IO.print outcome.output
  if outcome.errors ≠ "" then IO.eprintln outcome.errors
  return outcome.status.toUInt32
