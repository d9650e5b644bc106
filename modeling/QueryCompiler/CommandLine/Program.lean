import QueryCompiler.Closure.Lowering
import QueryCompiler.CommandLine.Arguments
import QueryCompiler.Document.Text
import QueryCompiler.Document.Writing
import QueryCompiler.Query.Builder
import QueryCompiler.Sql.Writer

/-!
# The program

From arguments to what is printed. The steps come in one order: the arguments, the settings, the
directory for logs, the input, the command. The first that fails decides how the program ends.
-/

namespace QueryCompiler.CommandLine

/-- How the program ends, with what it has printed. -/
structure Outcome where
  status : Nat
  /-- The text on the standard output. -/
  output : String
  /-- The text on the standard error output. -/
  errors : String
deriving DecidableEq

/-- A failure and what it goes back to. -/
structure Failure where
  message : String
  cause : Option String := none
deriving DecidableEq

namespace Failure

/-- A text with four blanks in front of each line. -/
def indented (text : String) : String :=
  Text.joined "\n" ((Text.splitOn '\n' text.toList).map fun line => "    " ++ String.ofList line)

/-- The report of a failure. -/
def report (f : Failure) : String :=
  "Error: " ++ f.message ++ match f.cause with
    | some cause => "\n\nCaused by:\n" ++ indented cause
    | none => ""

end Failure

/-- The name of the program. -/
def programName : String := "quill"

/-- The version of the program. -/
def programVersion : String := "0.1.0"

/-- What is printed where the version is asked for. -/
def versionText (command : Option String) : String :=
  (match command with
    | some name => programName ++ "-" ++ name
    | none => programName) ++ " " ++ programVersion

/-- What is printed where help is asked for. -/
def helpText : String :=
  "Usage: " ++ programName ++ " [OPTIONS] <COMMAND>\n\nCommands:\n" ++
  Text.joined "\n" (commandForms.map fun form => "  " ++ form.name ++
    match form.input with
    | some input => " <" ++ input ++ ">"
    | none => "")

/-- What goes wrong without going back to anything. -/
def withoutCause {α : Type} : Except SqlError α → Except Failure α
  | .ok a => .ok a
  | .error e => .error { message := e.message }

/-- A query as SQL, with its document and its fingerprint if the settings ask for them. -/
def render (s : Settings) (q : Query) : Except Failure String := do
  let sql ← withoutCause (SqlWriter.standard.query q)
  let document := if s.json then [q.toJson.pretty] else []
  let fingerprint := if s.fingerprint then ["-- fingerprint: " ++ q.fingerprint] else []
  return Text.joined "\n" (document ++ [sql] ++ fingerprint)

/-- The query that a text writes, as SQL. -/
def formatQuery (s : Settings) (text : String) : Except Failure String :=
  match Query.ofText text with
  | .ok q => render s q
  | .error fault => .error ⟨"input is not a valid JSON query", some fault.message⟩

/-- The resolver for the methods that a closure may call. -/
def Methods.resolver : Methods → Closure.Resolver
  | .standard => .standard
  | .none => .identity

/-- The filter of a closure. The report on a text that is no closure goes on behind its first line,
which is why that line has a number. -/
def closureFilter (methods : Methods) (source : String) : Except Failure Filter :=
  match Closure.ofText source >>= Closure.toFilter methods.resolver with
  | .ok filter => .ok filter
  | .error e =>
    let cause := match e with
      | .malformed => "0: " ++ e.message
      | _ => e.message
    .error ⟨"cannot lower closure `" ++ source ++ "`", some cause⟩

/-- A closure as a condition, or as the condition of a selection from a table. -/
def lowerClosure (s : Settings) (source : String) (table : Option String) (columns : List String) :
    Except Failure String := do
  let filter ← closureFilter s.methods source
  match table with
  | some table =>
    if columns = [] then .error { message := "--select is required together with --from" }
    else
      let q := (Query.ofEntity table).select (columns.map Field.select)
      render s { q with filter := some filter }
  | none =>
    let sql ← withoutCause (SqlWriter.standard.filter filter)
    return Text.joined "\n" ((if s.json then [filter.toJson.pretty] else []) ++ [sql])

/-- A text with blanks behind it up to a width. -/
def padded (width : Nat) (text : String) : String :=
  text ++ String.ofList (List.replicate (width - text.length) ' ')

/-- The document of a function. -/
def signatureJson (signature : Signature) : Json :=
  .object [("name", .string signature.name), ("kind", .string signature.kind.name),
    ("max_args", .integer signature.maxArguments), ("sql", .string signature.template)]

/-- The functions of a catalogue, as a document or one on a line. -/
def listFunctions (catalogue : Catalogue) (json : Bool) : String :=
  if json then (Json.array (catalogue.signatures.map signatureJson)).pretty
  else Text.joined "\n" (("# functions (registry " ++ catalogue.version ++ ")") ::
    catalogue.signatures.map fun signature =>
      padded 12 signature.name ++ " " ++ padded 10 signature.kind.name ++ " " ++ signature.template)

variable {m : Type → Type} [Monad m]

/-- The text of an input, which is a file or, as a hyphen, the standard input. -/
def readInput (world : World m) (input : String) : m (Except Failure String) := do
  if input = "-" then match ← world.input with
    | .ok text => return .ok text
    | .error fault => return .error { message := fault.message }
  else match ← world.read input with
    | .ok text => return .ok text
    | .error fault => return .error ⟨"cannot read " ++ input, some fault.message⟩

/-- What a command prints. -/
def execute (world : World m) (s : Settings) : Command → m (Except Failure String)
  | .format input fingerprint => do
    let text ← readInput world input
    return do formatQuery { s with fingerprint := s.fingerprint || fingerprint } (← text)
  | .closure source table columns methods =>
    return lowerClosure { s with methods := methods.getD s.methods } source table columns
  | .functions => return .ok (listFunctions Catalogue.standard s.json)

/-- Makes the directory for logs, if logs go to files. -/
def openLogs (world : World m) (s : Settings) : m (Except Failure Unit) := do
  if s.logOutput = .console then return .ok ()
  else if s.logDirectory.contains '\x00' then return .error { message := PathFault.nul.message }
  else match ← world.makeDirectory s.logDirectory with
    | .ok () => return .ok ()
    | .error fault => return .error { message := fault.message }

/-- What an invocation prints. -/
def invoke (world : World m) (invocation : Invocation) : m (Except Failure String) := do
  match ← Settings.find world invocation.config with
  | .error e => return .error ⟨e.message, e.cause?⟩
  | .ok settings => match ← openLogs world settings with
    | .error e => return .error e
    | .ok () =>
      execute world { settings with json := settings.json || invocation.json } invocation.command

/-- Runs the program. -/
def run (world : World m) (args : List String) : m Outcome := do
  match Invocation.ofArguments (← world.environment "QUILL_CONFIG") args with
  | .error (.usage fault) => return ⟨2, "", fault.message⟩
  | .error (.version command) => return ⟨0, versionText command ++ "\n", ""⟩
  | .error .help => return ⟨0, helpText ++ "\n", ""⟩
  | .ok invocation => match ← invoke world invocation with
    | .ok text => return ⟨0, text ++ "\n", ""⟩
    | .error e => return ⟨1, "", e.report⟩

end QueryCompiler.CommandLine
