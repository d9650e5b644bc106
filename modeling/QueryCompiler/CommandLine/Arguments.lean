import QueryCompiler.CommandLine.Settings
import QueryCompiler.Text.Joined

/-!
# Arguments

The arguments name a command, its inputs and some options. Options come before or after the command;
some belong to one command only. An option's value is the next argument or stands behind an equals
sign. Arguments are looked at from left to right, and the first fault ends the look, as do the
options that ask for help or the version.
-/

namespace QueryCompiler.CommandLine

/-- What the program is asked to do. -/
inductive Command
  /-- Render the query of a file. -/
  | format (input : String) (fingerprint : Bool)
  /-- Render a closure, as the condition of a selection if a table is given. -/
  | closure (source : String) (table : Option String) (columns : List String)
      (methods : Option Methods)
  /-- List the functions. -/
  | functions
deriving DecidableEq

/-- A command with the options that every command has. -/
structure Invocation where
  config : Option String
  json : Bool
  command : Command
deriving DecidableEq

/-- What is wrong with the arguments. -/
inductive UsageFault
  | noCommand
  | unknownCommand (name : String)
  | unknownOption (name : String)
  | unexpectedArgument (arg : String)
  | repeatedOption (name : String)
  | noValue (name : String)
  | unexpectedValue (name : String)
  | invalidValue (name value : String)
  | noInput (name : String)
deriving DecidableEq

/-- The message for a fault. -/
def UsageFault.message : UsageFault → String
  | noCommand => "error: a command is required"
  | unknownCommand name => "error: unrecognized command '" ++ name ++ "'"
  | unknownOption name => "error: unknown option '" ++ name ++ "'"
  | unexpectedArgument arg => "error: unexpected argument '" ++ arg ++ "'"
  | repeatedOption name => "error: the option '--" ++ name ++ "' is given twice"
  | noValue name => "error: a value is required for '--" ++ name ++ "'"
  | unexpectedValue name => "error: no value is expected for '--" ++ name ++ "'"
  | invalidValue name value => "error: invalid value '" ++ value ++ "' for '--" ++ name ++ "'"
  | noInput name => "error: the argument '" ++ name ++ "' is required"

/-- Why there is no invocation. -/
inductive Stop
  | usage (fault : UsageFault)
  /-- The version is asked for, by a command or without one. -/
  | version (command : Option String)
  | help
deriving DecidableEq

/-- An option. -/
inductive Switch
  | config
  | json
  | fingerprint
  | table
  | columns
  | methods
  | version
  | help
deriving DecidableEq

namespace Switch

/-- The option's name. -/
def name : Switch → String
  | config => "config"
  | json => "json"
  | fingerprint => "fingerprint"
  | table => "from"
  | columns => "select"
  | methods => "methods"
  | version => "version"
  | help => "help"

/-- The option has a value. -/
def takesValue : Switch → Bool
  | config | table | columns | methods => true
  | json | fingerprint | version | help => false

/-- The option's letter. -/
def letter? : Switch → Option Char
  | config => some 'c'
  | version => some 'V'
  | help => some 'h'
  | _ => none

/-- Options without a command, and of every command. -/
def shared : List Switch := [config, json, version, help]

end Switch

/-- The name of a command and what it understands. -/
structure CommandForm where
  name : String
  switches : List Switch
  /-- The name of its input, if it has one. -/
  input : Option String
deriving DecidableEq

/-- The commands. -/
def commandForms : List CommandForm :=
  [⟨"format", .fingerprint :: Switch.shared, some "INPUT"⟩,
   ⟨"closure", [.table, .columns, .methods] ++ Switch.shared, some "SOURCE"⟩,
   ⟨"functions", Switch.shared, none⟩]

/-- What was found among the arguments: options in the order in which they came, and the others. -/
structure Found where
  options : List (Switch × String) := []
  others : List String := []
deriving DecidableEq

namespace Found

/-- An option was found. -/
def has (found : Found) (switch : Switch) : Bool :=
  found.options.any fun option => option.1 = switch

/-- The values of an option. -/
def values (found : Found) (switch : Switch) : List String :=
  (found.options.filter fun option => option.1 = switch).map Prod.snd

/-- The value of an option. -/
def value? (found : Found) (switch : Switch) : Option String :=
  (found.values switch).head?

/-- A value fits its option. -/
def isValid : Switch → String → Bool
  | .config, value => value ≠ ""
  | .methods, value => (Methods.ofName? value).isSome
  | _, _ => true

/-- Adds an option. Only columns may be given more than once. -/
def add (found : Found) (switch : Switch) (value : String) : Except Stop Found :=
  if ¬ isValid switch value then .error (.usage (.invalidValue switch.name value))
  else if found.has switch ∧ switch ≠ .columns then .error (.usage (.repeatedOption switch.name))
  else .ok { found with options := found.options ++ [(switch, value)] }

end Found

/-- An argument. -/
inductive Shape
  /-- Two hyphens, behind which there are no options. -/
  | separator
  /-- An option by name, with a value behind an equals sign. -/
  | long (name : String) (value : Option String)
  /-- An option by letter, with what stands behind it. -/
  | short (letter : Char) (rest : List Char)
  | other (text : String)
deriving DecidableEq

/-- The shape of an argument. A hyphen alone is no option. -/
def Shape.of (arg : String) : Shape :=
  match arg.toList with
  | ['-', '-'] => .separator
  | '-' :: '-' :: cs => match Text.splitFirst? '=' cs with
    | some (name, value) => .long (String.ofList name) (some (String.ofList value))
    | none => .long (String.ofList cs) none
  | '-' :: c :: cs => .short c cs
  | _ => .other arg

/-- The argument may be an option's value. -/
def isValue (arg : String) : Bool :=
  match Shape.of arg with
  | .other _ => true
  | _ => false

/-- The value that is attached to an option's letter, if there is one. -/
def attached? : List Char → Option String
  | [] => none
  | '=' :: cs => some (String.ofList cs)
  | cs => some (String.ofList cs)

/-- The option that an argument names, with the value that is attached to it. -/
def switchOf (switches : List Switch) : Shape → Except Stop (Switch × Option String)
  | .long name value => match switches.find? fun switch => switch.name = name with
    | some switch => .ok (switch, value)
    | none => .error (.usage (.unknownOption name))
  | .short letter rest => match switches.find? fun switch => switch.letter? = some letter with
    | some switch => .ok (switch, attached? rest)
    | none => .error (.usage (.unknownOption (String.singleton letter)))
  | .separator => .error (.usage (.unexpectedArgument "--"))
  | .other text => .error (.usage (.unexpectedArgument text))

/-- What an option without a value does. An option by letter is followed by others, of which the
first decides. -/
def addFlag (command : Option String) (found : Found) (switch : Switch) (value : Option String)
    (isLong : Bool) : Except Stop Found :=
  match switch with
  | .version => if isLong ∧ value.isSome then .error (.usage (.unexpectedValue switch.name))
    else .error (.version command)
  | .help => if isLong ∧ value.isSome then .error (.usage (.unexpectedValue switch.name))
    else .error .help
  | _ => if value.isSome then .error (.usage (.unexpectedValue switch.name))
    else found.add switch ""

/-- The argument is an option by name. -/
def Shape.isLong : Shape → Bool
  | .long .. => true
  | _ => false

/-- Takes arguments that are no options as a command's input. -/
def addOthers (form : CommandForm) (found : Found) (args : List String) : Except Stop Found :=
  let room := (if form.input.isSome then 1 else 0) - found.others.length
  match args[room]? with
  | some arg => .error (.usage (.unexpectedArgument arg))
  | none => .ok { found with others := found.others ++ args }

/-- Collects the arguments behind a command. -/
def collect (form : CommandForm) (found : Found) : List String → Except Stop Found
  | [] => .ok found
  | arg :: rest => match Shape.of arg with
    | .separator => addOthers form found rest
    | .other text => do collect form (← addOthers form found [text]) rest
    | shape => do
      let (switch, value) ← switchOf form.switches shape
      if switch.takesValue then
        match value, rest with
        | some value, rest => collect form (← found.add switch value) rest
        | none, value :: rest =>
          if isValue value then collect form (← found.add switch value) rest
          else .error (.usage (.noValue switch.name))
        | none, [] => .error (.usage (.noValue switch.name))
      else collect form (← addFlag (some form.name) found switch value shape.isLong) rest

/-- Collects the arguments before a command, and returns the command with those behind it. -/
def collectShared (found : Found) : List String → Except Stop (Found × String × List String)
  | [] => .error (.usage .noCommand)
  | arg :: rest => match Shape.of arg with
    | .separator => .error (.usage .noCommand)
    | .other text => .ok (found, text, rest)
    | shape => do
      let (switch, value) ← switchOf Switch.shared shape
      if switch.takesValue then
        match value, rest with
        | some value, rest => collectShared (← found.add switch value) rest
        | none, value :: rest =>
          if isValue value then collectShared (← found.add switch value) rest
          else .error (.usage (.noValue switch.name))
        | none, [] => .error (.usage (.noValue switch.name))
      else collectShared (← addFlag none found switch value shape.isLong) rest

/-- The columns that are named between commas, in all occurrences of the option. -/
def columnNames (found : Found) : List String :=
  (found.values .columns).flatMap fun value =>
    (Text.splitOn ',' value.toList).map String.ofList

/-- The command that a form and the arguments behind it make up. -/
def commandOf (form : CommandForm) (found : Found) : Except Stop Command :=
  match form.name, found.others with
  | "format", [input] => .ok (.format input (found.has .fingerprint))
  | "closure", [source] =>
    .ok (.closure source (found.value? .table) (columnNames found)
      ((found.value? .methods).bind Methods.ofName?))
  | "functions", _ => .ok .functions
  | _, _ => .error (.usage (.noInput (form.input.getD "")))

/-- What the names behind the command `help` ask for, which is help for one command at most. -/
def helpOn (names : List String) : Stop :=
  let isKnown (name : String) := name = "help" ∨ name ∈ commandForms.map CommandForm.name
  match names with
  | [] => .help
  | name :: rest =>
    if isKnown name then match rest with
      | [] => .help
      | other :: _ => .usage (.unknownCommand other)
    else .usage (.unknownCommand name)

/-- The invocation that some arguments write. The file with settings may also be named by a
variable; an option goes before the variable, and one behind the command before one in front of it.
The variable must not be empty where it is looked at: unless the option stands in both places. -/
def Invocation.ofArguments (configVariable : Option String) (args : List String) :
    Except Stop Invocation := do
  let (outer, name, rest) ← collectShared {} args
  if name = "help" then .error (helpOn rest)
  match commandForms.find? fun form => form.name = name with
  | none => .error (.usage (.unknownCommand name))
  | some form =>
    let inner ← collect form {} rest
    let command ← commandOf form inner
    if configVariable = some "" ∧ ¬ (inner.has .config ∧ outer.has .config) then
      .error (.usage (.invalidValue Switch.config.name ""))
    return {
      config := inner.value? .config <|> outer.value? .config <|> configVariable
      json := inner.has .json || outer.has .json
      command }

end QueryCompiler.CommandLine
