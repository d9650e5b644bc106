import QueryCompiler.CommandLine.World
import QueryCompiler.Yaml.Anchor
import QueryCompiler.Yaml.Reading

/-!
# Settings

What is printed and where logs go. Settings are read from a file, and variables override the file.
Keys that are not known are left alone; a key that is known may come once.
-/

namespace QueryCompiler.CommandLine

/-- Which methods a closure may call. -/
inductive Methods
  | standard
  | none
deriving DecidableEq

/-- The methods of a given name. -/
def Methods.ofName? : String → Option Methods
  | "standard" => some standard
  | "none" => some none
  | _ => Option.none

/-- Where logs go. -/
inductive LogOutput
  | console
  | file
  | both
deriving DecidableEq

/-- The output of a given name. An unknown name is the console's. -/
def LogOutput.ofName : String → LogOutput
  | "file" => file
  | "both" => both
  | _ => console

/-- Settings. -/
structure Settings where
  /-- The query or filter is printed as a document before its SQL. -/
  json : Bool := false
  /-- The fingerprint of a query is printed after its SQL. -/
  fingerprint : Bool := false
  methods : Methods := .standard
  logOutput : LogOutput := .console
  logDirectory : String := "./logs"
deriving DecidableEq

/-- Why there are no settings. -/
inductive SettingsError
  | unreadable (fault : PathFault)
  | malformed
  | invalidValue (name value : String)
deriving DecidableEq

/-- The message for a failure. What the parser says of a malformed file is not modelled: three dots
stand in its place. -/
def SettingsError.message : SettingsError → String
  | unreadable fault => "Failed to read config file: " ++ fault.message
  | malformed => "Failed to parse YAML: ..."
  | invalidValue name value => "Invalid value for " ++ name ++ ": " ++ value

/-- What a failure goes back to. -/
def SettingsError.cause? : SettingsError → Option String
  | unreadable fault => some fault.message
  | _ => Option.none

/-- The name of the file with settings, where no other is given. -/
def Settings.standardFile : String := "quill.yaml"

namespace Settings

/-- Values in a document of settings. -/
abbrev Reading (α : Type) := (document y : Yaml Nat) → Option α

/-- A text, which is any scalar. -/
def text? : Reading String := fun document y =>
  match y.follow document with
  | .scalar _ _ text => some text
  | _ => Option.none

/-- A flag, which is plain, or a literal block that is tagged as a flag. -/
def flag? : Reading Bool := fun document y =>
  match y.follow document with
  | .scalar p style text =>
    if style = .plain ∨ (style = .literal ∧ p.tag = some (Yaml.Tag.standard "bool")) then
      if text ∈ ["true", "True", "TRUE"] then some true
      else if text ∈ ["false", "False", "FALSE"] then some false
      else Option.none
    else Option.none
  | _ => Option.none

/-- The methods that are named by a scalar, or by an author's own tag in front of nothing. -/
def methods? : Reading Methods := fun document y =>
  match y.follow document with
  | .scalar p style text => match p.tag.bind Yaml.Tag.ownName? with
    | some name =>
      if style = .plain ∧ text ∈ ["", "null", "Null", "NULL", "~"] then Methods.ofName? name
      else Option.none
    | Option.none => Methods.ofName? text
  | _ => Option.none

/-- The entries of a section, none where nothing was written. A key is any scalar. -/
def entries? : Reading (List (String × Yaml Nat)) := fun document y =>
  match y.follow document with
  | .mapping _ entries => entries.mapM fun (key, value) => do return (← text? document key, value)
  | .scalar _ .plain "" => some []
  | _ => Option.none

/-- The value of a key that may come once. -/
def unique? (key : String) (entries : List (String × Yaml Nat)) : Option (Option (Yaml Nat)) :=
  match entries.filter fun entry => entry.1 = key with
  | [] => some Option.none
  | [(_, y)] => some (some y)
  | _ => Option.none

/-- The value of a key, or a standard one. -/
def get? {α : Type} (document : Yaml Nat) (key : String) (read : Reading α) (standard : α)
    (entries : List (String × Yaml Nat)) : Option α := do
  match ← unique? key entries with
  | some y => read document y
  | Option.none => return standard

/-- The settings that a file's value writes. -/
def ofYaml? (y : Yaml String) : Option Settings := do
  let (document, _) ← Yaml.numbered [] y
  let get {α : Type} (key : String) (read : Reading α) (standard : α) :=
    get? document key read standard
  let sections ← entries? document document
  let output ← get "output" entries? [] sections
  let logging ← get "logging" entries? [] sections
  let _ ← get "level" text? "" logging
  let _ ← get "format" text? "" logging
  let standard : Settings := {}
  return {
    json := ← get "json" flag? standard.json output
    fingerprint := ← get "fingerprint" flag? standard.fingerprint output
    methods := ← get "methods" methods? standard.methods output
    logOutput := LogOutput.ofName (← get "output" text? "" logging)
    logDirectory := ← get "directory" text? standard.logDirectory logging }

/-- The flag that a variable writes. -/
def variableFlag (name value : String) : Except SettingsError Bool :=
  if value ∈ ["1", "true", "yes", "on"] then .ok true
  else if value ∈ ["0", "false", "no", "off"] then .ok false
  else .error (.invalidValue name value)

/-- The variables that override settings. -/
structure Variables where
  json : Option String := Option.none
  fingerprint : Option String := Option.none
  methods : Option String := Option.none
  logOutput : Option String := Option.none
  logDirectory : Option String := Option.none

/-- The settings with those that variables override. -/
def override (s : Settings) (v : Variables) : Except SettingsError Settings := do
  let json ← match v.json with
    | some value => variableFlag "QUILL_OUTPUT_JSON" value
    | Option.none => pure s.json
  let fingerprint ← match v.fingerprint with
    | some value => variableFlag "QUILL_FINGERPRINT" value
    | Option.none => pure s.fingerprint
  let methods ← match v.methods with
    | some value => match Methods.ofName? value with
      | some methods => pure methods
      | Option.none => .error (.invalidValue "QUILL_METHODS" value)
    | Option.none => pure s.methods
  return {
    json, fingerprint, methods
    logOutput := (v.logOutput.map LogOutput.ofName).getD s.logOutput
    logDirectory := v.logDirectory.getD s.logDirectory }

variable {m : Type → Type} [Monad m]

/-- Asks for the variables. -/
def askVariables (world : World m) : m Variables := do
  return {
    json := ← world.environment "QUILL_OUTPUT_JSON"
    fingerprint := ← world.environment "QUILL_FINGERPRINT"
    methods := ← world.environment "QUILL_METHODS"
    logOutput := ← world.environment "LOG_OUTPUT"
    logDirectory := ← world.environment "LOG_DIR" }

/-- The settings of a file, or the standard ones if the standard file is not there. -/
def ofFile (path : Option String) (content : Except PathFault String) :
    Except SettingsError Settings :=
  match content with
  | .ok text => match (Yaml.ofText? text).bind ofYaml? with
    | some settings => .ok settings
    | Option.none => .error .malformed
  | .error .notFound => if path.isNone then .ok {} else .error (.unreadable .notFound)
  | .error fault => .error (.unreadable fault)

/-- Finds the settings, given the path of their file if one was named. -/
def find (world : World m) (path : Option String) : m (Except SettingsError Settings) := do
  let content ← world.read (path.getD standardFile)
  let overrides ← askVariables world
  return do (← ofFile path content).override overrides

end Settings

end QueryCompiler.CommandLine
