import QueryCompiler.Function.Renderer

/-!
# The catalogue of functions

Functions are found by name. Registering a name again replaces what it stood for, so that the
catalogue never holds two functions of one name.
-/

namespace QueryCompiler

/-- What a function works on. -/
inductive FunctionKind
  | pattern
  | string
  | date
  | math
  | arithmetic
deriving DecidableEq

/-- The kind's name. -/
def FunctionKind.name : FunctionKind → String
  | pattern => "pattern"
  | string => "string"
  | date => "date"
  | math => "math"
  | arithmetic => "arithmetic"

/-- The kind with a given name. -/
def FunctionKind.ofName? (name : String) : Option FunctionKind :=
  [pattern, string, date, math, arithmetic].find? fun kind => kind.name = name

/-- A function of the catalogue. How it is rendered may be one of the renderers here, or anything
else by which calls can be rendered. -/
structure Signature (ρ : Type := Renderer) where
  name : String
  kind : FunctionKind
  /-- How many arguments it takes at most, the field counted. -/
  maxArguments : Nat
  /-- What the function looks like, for listings. -/
  template : String
  renderer : ρ
deriving DecidableEq

/-- Functions by name. -/
structure Catalogue (ρ : Type := Renderer) where
  version : String
  /-- The functions in no particular order. -/
  entries : List (Signature ρ)

namespace Catalogue

variable {ρ : Type}

/-- The functions that every catalogue has. -/
def builtins : List Signature :=
  [⟨"startswith", .pattern, 2, "(a REGEXP '^b')", .startsWith⟩,
   ⟨"endswith", .pattern, 2, "(a REGEXP 'b$')", .endsWith⟩,
   ⟨"contains", .pattern, 2, "(a REGEXP 'b')", .contains⟩,
   ⟨"length", .string, 1, "LENGTH(a)", .unary⟩,
   ⟨"trim", .string, 1, "TRIM(a)", .unary⟩,
   ⟨"tolower", .string, 1, "LOWER(a)", .unary⟩,
   ⟨"toupper", .string, 1, "UPPER(a)", .unary⟩,
   ⟨"concat", .string, 2, "CONCAT(a,b)", .concat⟩,
   ⟨"indexof", .string, 2, "LOCATE(b,a)", .indexOf⟩,
   ⟨"substring", .string, 3, "SUBSTRING(a,pos+1[,len])", .substring⟩,
   ⟨"day", .date, 1, "DAY(a)", .unary⟩,
   ⟨"month", .date, 1, "MONTH(a)", .unary⟩,
   ⟨"year", .date, 1, "YEAR(a)", .unary⟩,
   ⟨"hour", .date, 1, "HOUR(a)", .unary⟩,
   ⟨"minute", .date, 1, "MINUTE(a)", .unary⟩,
   ⟨"second", .date, 1, "SECOND(a)", .unary⟩,
   ⟨"date", .date, 1, "DATE(a)", .unary⟩,
   ⟨"floor", .math, 1, "FLOOR(a)", .unary⟩,
   ⟨"ceiling", .math, 1, "CEILING(a)", .unary⟩,
   ⟨"round", .math, 2, "ROUND(a,b)", .round⟩,
   ⟨"add", .arithmetic, 2, "(a + b)", .arithmetic⟩,
   ⟨"sub", .arithmetic, 2, "(a - b)", .arithmetic⟩,
   ⟨"mul", .arithmetic, 2, "(a * b)", .arithmetic⟩,
   ⟨"div", .arithmetic, 2, "(a / b)", .arithmetic⟩,
   ⟨"mod", .arithmetic, 2, "(a % b)", .arithmetic⟩,
   ⟨"bit", .arithmetic, 2, "(a & b)", .arithmetic⟩]

/-- Puts a function into a list, in the place of one of the same name or at the end. -/
def insert (signature : Signature ρ) : List (Signature ρ) → List (Signature ρ)
  | [] => [signature]
  | other :: rest =>
    if other.name = signature.name then signature :: rest else other :: insert signature rest

/-- The catalogue of the built-in functions. -/
def ofVersion (version : String) : Catalogue :=
  ⟨version, builtins⟩

/-- The catalogue that is used where none is given. -/
def standard : Catalogue := ofVersion "0.1.0"

/-- The catalogue of the built-in functions with the renderers in another form, so that others can
stand beside them. -/
def ofVersionWith (form : Renderer → ρ) (version : String) : Catalogue ρ :=
  ⟨version, builtins.map fun signature => { signature with renderer := form signature.renderer }⟩

/-- Adds or replaces a function. -/
def register (signature : Signature ρ) (c : Catalogue ρ) : Catalogue ρ :=
  { c with entries := insert signature c.entries }

/-- The function of a name. -/
def find? (c : Catalogue ρ) (name : String) : Option (Signature ρ) :=
  c.entries.find? fun signature => signature.name = name

/-- The function of a name, or that there is none. -/
def lookup (c : Catalogue ρ) (name : String) : Except FunctionError (Signature ρ) :=
  match c.find? name with
  | some signature => .ok signature
  | none => .error (.notFound name)

/-- There is a function of the name. -/
def contains (c : Catalogue ρ) (name : String) : Bool :=
  (c.find? name).isSome

/-- The functions in the order of their names. -/
def signatures (c : Catalogue ρ) : List (Signature ρ) :=
  c.entries.mergeSort fun a b => a.name ≤ b.name

/-- Renders a call; the field comes first among the arguments. -/
def render [Renders ρ] (c : Catalogue ρ) (name : String) (args : List Argument) :
    Except FunctionError String := do
  let signature ← c.lookup name
  if signature.maxArguments < args.length then
    .error (.invalidArgument name (.tooMany signature.maxArguments args.length))
  else Renders.render signature.renderer name args

theorem find?_insert_self (signature : Signature ρ) (entries : List (Signature ρ)) :
    (insert signature entries).find? (fun s => s.name = signature.name) = some signature := by
  induction entries with
  | nil => simp [insert]
  | cons other rest ih => by_cases h : other.name = signature.name <;> simp [insert, h, ih]

theorem find?_insert_of_ne {signature : Signature ρ} {name : String} (h : signature.name ≠ name)
    (entries : List (Signature ρ)) :
    (insert signature entries).find? (fun s => s.name = name) =
      entries.find? fun s => s.name = name := by
  induction entries with
  | nil => simp [insert, h]
  | cons other rest ih =>
    by_cases h' : other.name = signature.name
    · simp [insert, h', h]
    · simp [insert, h', List.find?_cons, ih]

theorem ofVersionWith_id (version : String) : ofVersionWith id version = ofVersion version := by
  simp [ofVersionWith, ofVersion]

/-- In whatever form they are, the built-in functions render the same calls as the same texts. -/
theorem render_ofVersionWith [Renders ρ] {form : Renderer → ρ}
    (hform : ∀ renderer, Renders.render (form renderer) = renderer.render) (version name : String)
    (args : List Argument) :
    (ofVersionWith form version).render name args = (ofVersion version).render name args := by
  have hfind : (ofVersionWith form version).find? name = ((ofVersion version).find? name).map
      fun signature => { signature with renderer := form signature.renderer } :=
    List.find?_map
  rw [render, render, lookup, lookup, hfind]
  cases (ofVersion version).find? name with
  | none => rfl
  | some signature => simp [bind, Except.bind, hform]

end Catalogue

end QueryCompiler
