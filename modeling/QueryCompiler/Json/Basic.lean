/-!
# JSON values

Objects are ordered lists of members. A key occurs once in an object that was read or built with
`insertMember`: writing a key again keeps its place and takes the last value.
-/

namespace QueryCompiler

/-- A JSON value. A number is whole or a float, as its notation says. -/
inductive Json
  | null
  | bool (b : Bool)
  | integer (n : Int)
  | float (x : Float)
  | string (s : String)
  | array (items : List Json)
  | object (members : List (String × Json))
deriving Inhabited

namespace Json

/-- The value under a key. -/
def member? (key : String) (members : List (String × Json)) : Option Json :=
  members.lookup key

/-- A key stands among the members. -/
def hasKey (key : String) (members : List (String × Json)) : Bool :=
  members.any fun member => member.1 == key

/-- Sets the value under a key, at the key's old place or at the end. -/
def insertMember (key : String) (value : Json) : List (String × Json) → List (String × Json)
  | [] => [(key, value)]
  | (k, v) :: rest => if k = key then (k, value) :: rest else (k, v) :: insertMember key value rest

/-- The members in the order in which their keys first come, each with its last value. -/
def distinctMembers (members : List (String × Json)) : List (String × Json) :=
  members.foldl (fun done (key, value) => insertMember key value done) []

/-- The object with one member. -/
def single (key : String) (value : Json) : Json :=
  .object [(key, value)]

/-- The items of an array, and any other value as the only item. -/
def oneOrMany : Json → List Json
  | .array items => items
  | other => [other]

theorem member?_insertMember_self (key : String) (value : Json) (members : List (String × Json)) :
    member? key (insertMember key value members) = some value := by
  induction members with
  | nil => simp [insertMember, member?]
  | cons head rest ih =>
    obtain ⟨k, v⟩ := head
    by_cases h : k = key
    · simp [insertMember, member?, h]
    · have h' : (key == k) = false := by simpa using fun e : key = k => h e.symm
      simpa [insertMember, member?, h, List.lookup_cons, h'] using ih

end Json

end QueryCompiler
