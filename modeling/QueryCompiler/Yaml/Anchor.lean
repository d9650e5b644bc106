import QueryCompiler.Yaml.Basic

/-!
# What names stand for

Names are numbered in the order of the text: a part that is named takes for its name's number how
many names are known before it. So a name that is given again takes a number anew, and the next new
name takes the same one. An alias has the number that its name has where it stands, and stands for
the last part of that number.
-/

namespace QueryCompiler.Yaml

/-- The numbers of names. -/
abbrev Numbers := List (String × Nat)

/-- Gives a name its number. -/
def Numbers.give (name : String) (known : Numbers) : Numbers :=
  (name, known.length) :: known.filter fun entry => entry.1 ≠ name

/-- Numbers what stands in front of a value. -/
def Properties.numbered (known : Numbers) (p : Properties String) : Properties Nat × Numbers :=
  match p.anchor with
  | some name => (⟨some known.length, p.tag⟩, known.give name)
  | none => (⟨none, p.tag⟩, known)

mutual

/-- Numbers the names in a value, unless one of them stands for nothing. -/
def numbered (known : Numbers) : Yaml String → Option (Yaml Nat × Numbers)
  | .aliasTo name => (known.lookup name).map fun number => (.aliasTo number, known)
  | .scalar p style text =>
    let (p, known) := p.numbered known
    some (.scalar p style text, known)
  | .sequence p items => do
    let (p, known) := p.numbered known
    let (items, known) ← numberedItems known items
    return (.sequence p items, known)
  | .mapping p entries => do
    let (p, known) := p.numbered known
    let (entries, known) ← numberedEntries known entries
    return (.mapping p entries, known)

/-- Numbers the names in items. -/
def numberedItems (known : Numbers) : List (Yaml String) → Option (List (Yaml Nat) × Numbers)
  | [] => some ([], known)
  | item :: items => do
    let (item, known) ← numbered known item
    let (items, known) ← numberedItems known items
    return (item :: items, known)

/-- Numbers the names in entries. -/
def numberedEntries (known : Numbers) :
    List (Yaml String × Yaml String) → Option (List (Yaml Nat × Yaml Nat) × Numbers)
  | [] => some ([], known)
  | (key, value) :: entries => do
    let (key, known) ← numbered known key
    let (value, known) ← numbered known value
    let (entries, known) ← numberedEntries known entries
    return ((key, value) :: entries, known)

end

/-- The part of a document that a value in it stands for, which is the value itself if it is no
alias. -/
def follow (y document : Yaml Nat) : Yaml Nat :=
  match y with
  | .aliasTo number => (document.parts.reverse.find? fun y => y.anchor? = some number).getD y
  | _ => y

end QueryCompiler.Yaml
