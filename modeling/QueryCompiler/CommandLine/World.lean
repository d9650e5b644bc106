/-!
# What the program asks of its surroundings

Files, variables and the standard input are reached through a record of questions. The program is
the same whoever answers them.
-/

namespace QueryCompiler.CommandLine

/-- Why a path, or the standard input, cannot be used. -/
inductive PathFault
  | notFound
  | alreadyThere
  | notDirectory
  | isDirectory
  | noPermission
  /-- No path has a NUL in it. -/
  | nul
  /-- What is there is no text. -/
  | notText
  | other (text : String)
deriving DecidableEq

/-- The words for a fault. -/
def PathFault.message : PathFault → String
  | notFound => "No such file or directory (os error 2)"
  | alreadyThere => "File exists (os error 17)"
  | notDirectory => "Not a directory (os error 20)"
  | isDirectory => "Is a directory (os error 21)"
  | noPermission => "Permission denied (os error 13)"
  | nul => "file name contained an unexpected NUL byte"
  | notText => "stream did not contain valid UTF-8"
  | other text => text

/-- The questions. -/
structure World (m : Type → Type) where
  /-- The text of a file. -/
  read : String → m (Except PathFault String)
  /-- The text of the standard input. -/
  input : m (Except PathFault String)
  /-- The value of a variable. -/
  environment : String → m (Option String)
  /-- Makes a directory and those that it lies in, as far as they are not there. -/
  makeDirectory : String → m (Except PathFault Unit)

end QueryCompiler.CommandLine
