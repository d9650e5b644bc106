import Mathlib
import QueryCompiler.Proofs.EscapedText
import QueryCompiler.Proofs.NumberText

/-!
# What a database makes of a comparison

The text of a comparison of a function's result is read as a database reads it
(`Comparison.ofText?`), and whether it holds of a row is said by the functions of the database
(`Comparison.holds?`): `SUBSTRING` and `LOCATE` count positions from one, and `LOCATE` gives zero
for a text that is not there. A comparison that is written with names of columns is read again as it
was (`Comparison.ofText?_spelling`).
-/

namespace QueryCompiler

/-- Where the needle stands first, counted from zero. -/
def Text.position? (needle text : List Char) : Option ℕ :=
  (List.range (text.length + 1)).find? fun i => needle.isPrefixOf (text.drop i)

namespace Sql

open Grammar

/-! ## Comparisons -/

/-- An operand that is no call. -/
inductive Atom
  | integer (n : ℤ)
  | text (text : String)
  | column (name : String)
deriving DecidableEq

inductive Relation
  | eq
  | gt
  | ge
  | lt
  | le
deriving DecidableEq

/-- A comparison of what a function gives. -/
structure Comparison where
  negated : Bool
  function : String
  arguments : List Atom
  relation : Relation
  right : Atom
deriving DecidableEq

/-! ## What they mean -/

/-- A value of a database. -/
inductive Scalar
  | integer (n : ℤ)
  | text (text : List Char)
deriving DecidableEq

/-- The value of an operand in a row, whose columns hold texts. -/
def Atom.value (row : String → String) : Atom → Scalar
  | integer n => .integer n
  | text s => .text s.toList
  | column name => .text (row name).toList

/-- Where the needle stands first, counted from one, and zero if it is not there. -/
def locate (needle text : List Char) : ℤ :=
  match Text.position? needle text with
  | some i => i + 1
  | none => 0

/-- The text from a position on, which is counted from one, or from the end if it is negative. -/
def fromPosition (text : List Char) (position : ℤ) : List Char :=
  if 0 < position then text.drop (position - 1).toNat
  else if position < 0 ∧ -position ≤ text.length then text.drop (text.length + position).toNat
  else []

/-- What a function gives; nothing if it has no such arguments. -/
def call? : String → List Scalar → Option Scalar
  | "SUBSTRING", [.text s, .integer position] => some (.text (fromPosition s position))
  | "SUBSTRING", [.text s, .integer position, .integer length] =>
    some (.text ((fromPosition s position).take length.toNat))
  | "LOCATE", [.text needle, .text s] => some (.integer (locate needle s))
  | _, _ => none

/-- Whether two integers are so related. -/
def Relation.holds : Relation → ℤ → ℤ → Bool
  | eq, a, b => a = b
  | gt, a, b => a > b
  | ge, a, b => a ≥ b
  | lt, a, b => a < b
  | le, a, b => a ≤ b

/-- Whether two values are so related. Texts are equal if they have the same characters; nothing is
said of their order. -/
def Relation.holds? : Relation → Scalar → Scalar → Option Bool
  | eq, .text s, .text t => some (s = t)
  | relation, .integer a, .integer b => some (relation.holds a b)
  | _, _, _ => none

theorem Relation.holds?_integer (relation : Relation) (a b : ℤ) :
    relation.holds? (.integer a) (.integer b) = some (relation.holds a b) := by
  cases relation <;> rfl

namespace Comparison

/-- What the function gives for a row. -/
def called? (row : String → String) (c : Comparison) : Option Scalar :=
  call? c.function (c.arguments.map (Atom.value row))

/-- Whether the comparison holds of a row. -/
def holds? (row : String → String) (c : Comparison) : Option Bool := do
  let value ← c.called? row
  let result ← c.relation.holds? value (c.right.value row)
  return result != c.negated

end Comparison

/-! ## How they are read -/

/-- The character belongs to a word. -/
def isWordChar (c : Char) : Bool :=
  c ∉ [' ', '(', ')', ',', '=', '<', '>', '\'', '\\']

/-- Reads a word. -/
def word : Reader Char (List Char)
  | [] => none
  | c :: cs =>
    if isWordChar c then some (c :: cs.takeWhile isWordChar, .behindWhile isWordChar) else none

/-- The number that digits write. -/
def natural? (cs : List Char) : Option ℕ :=
  if cs ≠ [] ∧ cs.all Char.isDigit then some (Text.digitsValue cs) else none

/-- The number that digits write, with a sign or not. -/
def integer? : List Char → Option ℤ
  | '-' :: cs => (natural? cs).map fun n => -(n : ℤ)
  | cs => (natural? cs).map fun n => (n : ℤ)

/-- A word is a number or the name of a column. -/
def Atom.ofWord (w : List Char) : Atom :=
  match integer? w with
  | some n => .integer n
  | none => .column (String.ofList w)

/-- Reads an operand that is no call. -/
def Atom.reader : Reader Char Atom :=
  (((Reader.exactly '\'').andThen fun _ => Dialect.literalText).map fun s =>
    .text (String.ofList s)).orElse (word.map .ofWord)

/-- Reads the sign of a relation. -/
def Relation.reader : Reader Char Relation
  | '=' :: _ => some (eq, .tail)
  | '>' :: '=' :: _ => some (ge, Rest.later .tail)
  | '>' :: _ => some (gt, .tail)
  | '<' :: '=' :: _ => some (le, Rest.later .tail)
  | '<' :: _ => some (lt, .tail)
  | _ => none

namespace Comparison

/-- Reads the word in front of what is denied. -/
def negation : Reader Char Unit :=
  word.andThen fun w => if w = "NOT".toList then Reader.exactly ' ' else fun _ => none

/-- Reads a comparison up to the closing bracket. -/
def body (negated : Bool) : Reader Char Comparison :=
  word.andThen fun function => (Reader.exactly '(').andThen fun _ =>
    (Atom.reader.enclosed ',' ')').andThen fun arguments => Relation.reader.andThen fun relation =>
      Atom.reader.andThen fun right => (Reader.exactly ')').map fun _ =>
        ⟨negated, String.ofList function, arguments, relation, right⟩

/-- Reads a comparison between brackets. -/
def reader : Reader Char Comparison :=
  (Reader.exactly '(').andThen fun _ => (negation.andThen fun _ => body true).orElse (body false)

/-- The comparison that a text is. -/
def ofText? (text : String) : Option Comparison :=
  reader.all? text.toList

end Comparison

/-! ## How they are written -/

/-- The text of an operand. -/
def Atom.spelling : Atom → String
  | integer n => toString n
  | text s => Dialect.quoteEscaped s
  | column name => name

/-- The sign of a relation. -/
def Relation.sign : Relation → String
  | eq => "="
  | gt => ">"
  | ge => ">="
  | lt => "<"
  | le => "<="

/-- The text of the call. -/
def Comparison.callText (c : Comparison) : String :=
  c.function ++ "(" ++ Text.joined "," (c.arguments.map Atom.spelling) ++ ")"

/-- The text of a comparison. -/
def Comparison.spelling (c : Comparison) : String :=
  "(" ++ (if c.negated then "NOT " else "") ++ c.callText ++ c.relation.sign ++ c.right.spelling ++ ")"

/-- The name is a word. -/
def IsWord (name : String) : Prop :=
  name.toList ≠ [] ∧ name.toList.all isWordChar = true

/-- A column is named by a word that is no number. -/
def Atom.IsNamed : Atom → Prop
  | column name => IsWord name ∧ integer? name.toList = none
  | _ => True

/-- Columns and functions are named by words. -/
structure Comparison.IsNamed (c : Comparison) : Prop where
  function : IsWord c.function
  notNegation : c.function ≠ "NOT"
  arguments : ∀ a ∈ c.arguments, a.IsNamed
  right : c.right.IsNamed

section Reading

variable {rest : List Char}

theorem reads_word {w : List Char} (hne : w ≠ []) (hw : w.all isWordChar = true)
    (hrest : ∀ c ∈ rest.head?, isWordChar c = false) : Reads word (w ++ rest) w rest := by
  obtain ⟨c, cs, rfl⟩ := List.exists_cons_of_ne_nil hne
  obtain ⟨hc, hcs⟩ := List.forall_mem_cons.mp (List.all_eq_true.mp hw)
  obtain ⟨htake, hdrop⟩ := takeWhile_append hcs hrest
  have hread : word (c :: (cs ++ rest))
      = some (c :: (cs ++ rest).takeWhile isWordChar, .behindWhile isWordChar) := if_pos hc
  rw [htake] at hread
  exact .of_eq hread hdrop

theorem natural?_toDigits (n : ℕ) : natural? (Nat.toDigits 10 n) = some n := by
  have hdigits : (Nat.toDigits 10 n).all Char.isDigit = true :=
    List.all_eq_true.mpr fun _ => Nat.isDigit_of_mem_toDigits (by decide) (by decide)
  rw [natural?, if_pos ⟨Nat.toDigits_ne_nil, hdigits⟩, Text.digitsValue_eq_ofDigitChars,
    Nat.ofDigitChars_ten_toDigits]

theorem integer?_toString (n : ℤ) : integer? (toString n).toList = some n := by
  rcases n with n | n
  · rw [Int.ofNat_eq_natCast, toList_toString_ofNat, integer?]
    · rw [natural?_toDigits]
      rfl
    · intro cs hcs
      have hminus : '-' ∈ Nat.toDigits 10 n := hcs ▸ List.mem_cons_self
      exact absurd (Nat.isDigit_of_mem_toDigits (by decide) (by decide) hminus) (by decide)
  · rw [toList_toString_negSucc, integer?, natural?_toDigits]
    rfl

theorem isWord_toString (n : ℤ) : IsWord (toString n) := by
  refine ⟨toList_toString_ne_nil n, List.all_eq_true.mpr fun c hc => ?_⟩
  refine of_isNumeralChar (p := fun d => isWordChar d = true) (fun d hd => ?_)
    (List.all_eq_true.mp rfl) (isNumeralChar_of_mem_toString hc)
  simp only [isWordChar, List.mem_cons, List.not_mem_nil, or_false, decide_eq_true_eq, not_or]
  refine ⟨?_, ?_, ?_, ?_, ?_, ?_, ?_, ?_, ?_⟩ <;> rintro rfl <;> cases hd

/-- An operand ends in front of a comma or a bracket. -/
theorem Atom.reads_reader {a : Atom} (ha : a.IsNamed) (hrest : ∀ c ∈ rest.head?, isWordChar c = false) :
    Reads reader (a.spelling.toList ++ rest) a rest := by
  have hword : ∀ {w : String}, IsWord w → Reads reader (w.toList ++ rest) (ofWord w.toList) rest := by
    intro w hw
    obtain ⟨c, cs, hcs⟩ := List.exists_cons_of_ne_nil hw.1
    have hc : c ≠ '\'' := by
      rintro rfl
      have hmem : '\'' ∈ w.toList := hcs ▸ List.mem_cons_self
      exact absurd (List.all_eq_true.mp hw.2 _ hmem) (by decide)
    refine .orElse_right (map_eq_none (andThen_eq_none_of_eq_none (exactly_eq_none ?_)))
      ((reads_word hw.1 hw.2 hrest).map _)
    rw [hcs]
    rintro ⟨⟩
    exact hc rfl
  cases a with
  | integer n =>
    have hread := hword (isWord_toString n)
    rwa [ofWord, integer?_toString] at hread
  | column name =>
    have hread := hword ha.1
    rwa [ofWord, ha.2, String.ofList_toList] at hread
  | text s =>
    have htext : (spelling (.text s)).toList ++ rest
        = '\'' :: (s.toList.flatMap Dialect.escapeChar ++ '\'' :: rest) := by
      simp [spelling, Dialect.quoteEscaped]
    rw [htext]
    have hread : Reads ((Reader.exactly '\'').andThen fun _ => Dialect.literalText)
        ('\'' :: (s.toList.flatMap Dialect.escapeChar ++ '\'' :: rest)) s.toList rest :=
      (Reads.exactly '\'').andThen (Dialect.reads_literalText s.toList rest)
    have hatom := hread.map fun s => Atom.text (String.ofList s)
    rw [String.ofList_toList] at hatom
    exact .orElse_left hatom

theorem Relation.reads_reader (relation : Relation) (hrest : '=' ∉ rest.head?) :
    Reads reader (relation.sign.toList ++ rest) relation rest := by
  -- A sign of two characters goes on with an equals sign behind its first one.
  have hequals : ∀ cs, rest ≠ '=' :: cs := by
    rintro cs rfl
    exact hrest rfl
  cases relation with
  | eq => exact ⟨Nat.lt_succ_self _, rfl⟩
  | ge => exact ⟨(Nat.lt_succ_self _).trans (Nat.lt_succ_self _), rfl⟩
  | le => exact ⟨(Nat.lt_succ_self _).trans (Nat.lt_succ_self _), rfl⟩
  | gt =>
    refine ⟨Nat.lt_succ_self _, ?_⟩
    change reader ('>' :: rest) = _
    rw [reader]
    · rfl
    · exact hequals
  | lt =>
    refine ⟨Nat.lt_succ_self _, ?_⟩
    change reader ('<' :: rest) = _
    rw [reader]
    · rfl
    · exact hequals

/-- An operand begins neither with a bracket nor with the sign of a relation. -/
theorem Atom.spelling_first {a : Atom} (ha : a.IsNamed) :
    ∃ c cs, a.spelling.toList = c :: cs ∧ c ≠ ')' ∧ c ≠ '=' := by
  have hword : ∀ {w : String}, IsWord w → ∃ c cs, w.toList = c :: cs ∧ c ≠ ')' ∧ c ≠ '=' := by
    intro w hw
    obtain ⟨c, cs, hcs⟩ := List.exists_cons_of_ne_nil hw.1
    have hc : isWordChar c = true := List.all_eq_true.mp hw.2 c (by simp [hcs])
    refine ⟨c, cs, hcs, ?_, ?_⟩ <;> rintro rfl <;> cases hc
  cases a with
  | integer n => exact hword (isWord_toString n)
  | column name => exact hword ha.1
  | text s => exact ⟨'\'', _, String.toList_ofList, by decide, by decide⟩

theorem Atom.readsList_reader : ∀ {a : Atom} {as : List Atom}, (∀ b ∈ a :: as, b.IsNamed) →
    ReadsList reader ',' ')' ((Text.joined "," ((a :: as).map spelling)).toList ++ ')' :: rest)
      (a :: as) rest
  | a, [], h => .last (reads_reader (h a List.mem_cons_self) (by simp [isWordChar]))
  | a, b :: as, h => by
    obtain ⟨ha, hrest⟩ := List.forall_mem_cons.mp h
    have htext : (Text.joined "," ((a :: b :: as).map spelling)).toList ++ ')' :: rest
        = a.spelling.toList ++
          ',' :: ((Text.joined "," ((b :: as).map spelling)).toList ++ ')' :: rest) := by
      simp [Text.joined_cons_cons]
    rw [htext]
    exact .step (reads_reader ha (by simp [isWordChar])) (readsList_reader hrest)

theorem Atom.reads_enclosed : ∀ {as : List Atom}, (∀ a ∈ as, a.IsNamed) →
    Reads (reader.enclosed ',' ')') ((Text.joined "," (as.map spelling)).toList ++ ')' :: rest) as rest
  | [], _ => .enclosed_nil
  | a :: as, h => by
    obtain ⟨c, cs, hcs, hclosing, -⟩ := spelling_first (h a List.mem_cons_self)
    refine (readsList_reader h).enclosed (by decide) ?_
    cases as with
    | nil => simpa [Text.joined, hcs] using hclosing
    | cons b as => simpa [Text.joined_cons_cons, hcs] using hclosing

namespace Comparison

variable {c : Comparison}

/-- The text behind the name of the function. -/
def behindFunction (c : Comparison) : List Char :=
  '(' :: ((Text.joined "," (c.arguments.map Atom.spelling)).toList ++
    ')' :: (c.relation.sign.toList ++ (c.right.spelling.toList ++ [')'])))

theorem reads_function (h : c.IsNamed) :
    Reads word (c.function.toList ++ c.behindFunction) c.function.toList c.behindFunction :=
  reads_word h.function.1 h.function.2 (by simp [behindFunction, isWordChar])

theorem reads_body (h : c.IsNamed) :
    Reads (body c.negated) (c.function.toList ++ c.behindFunction) c [] := by
  have hright : Reads Atom.reader (c.right.spelling.toList ++ [')']) c.right [')'] :=
    Atom.reads_reader h.right (by simp [isWordChar])
  have hrelation : Reads Relation.reader
      (c.relation.sign.toList ++ (c.right.spelling.toList ++ [')'])) c.relation
      (c.right.spelling.toList ++ [')']) := by
    obtain ⟨d, ds, hds, -, hd⟩ := Atom.spelling_first h.right
    exact c.relation.reads_reader (by simpa [hds] using hd)
  have hclosing : Reads ((Reader.exactly ')').map fun _ => (⟨c.negated,
      String.ofList c.function.toList, c.arguments, c.relation, c.right⟩ : Comparison)) [')'] c [] := by
    rw [String.ofList_toList]
    exact (Reads.exactly ')').map _
  exact (reads_function h).andThen <| (Reads.exactly '(').andThen <|
    (Atom.reads_enclosed h.arguments).andThen <| hrelation.andThen <| hright.andThen hclosing

/-- A comparison is read as it was written. -/
theorem ofText?_spelling (h : c.IsNamed) : ofText? c.spelling = some c := by
  have hread : Reads reader c.spelling.toList c [] := by
    have hbody := reads_body h
    cases hnegated : c.negated with
    | true =>
      have htext : c.spelling.toList = '(' :: ("NOT".toList ++ ' ' ::
          (c.function.toList ++ c.behindFunction)) := by
        simp [spelling, callText, behindFunction, hnegated]
      have hnot : Reads word ("NOT".toList ++ ' ' :: (c.function.toList ++ c.behindFunction))
          "NOT".toList (' ' :: (c.function.toList ++ c.behindFunction)) :=
        reads_word (by decide) (by decide) (by simp [isWordChar])
      have hnegation : Reads negation ("NOT".toList ++ ' ' :: (c.function.toList ++ c.behindFunction))
          () (c.function.toList ++ c.behindFunction) :=
        hnot.andThen (by rw [if_pos rfl]; exact .exactly ' ')
      rw [hnegated] at hbody
      rw [htext]
      exact (Reads.exactly '(').andThen (.orElse_left (hnegation.andThen hbody))
    | false =>
      have htext : c.spelling.toList = '(' :: (c.function.toList ++ c.behindFunction) := by
        simp [spelling, callText, behindFunction, hnegated]
      have hnegation : negation (c.function.toList ++ c.behindFunction) = none := by
        refine andThen_eq_none fun w _ hw => ?_
        rw [← (reads_function h).eq_of_reads hw, if_neg (mt String.toList_inj.mp h.notNegation)]
      rw [hnegated] at hbody
      rw [htext]
      exact (Reads.exactly '(').andThen (.orElse_right (andThen_eq_none_of_eq_none hnegation) hbody)
  obtain ⟨hlt, hread⟩ := hread
  rw [ofText?, Reader.all?, hread]

end Comparison

end Reading

end Sql

end QueryCompiler
