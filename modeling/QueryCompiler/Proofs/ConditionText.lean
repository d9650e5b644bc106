import Mathlib
import QueryCompiler.Proofs.Conditions
import QueryCompiler.Proofs.DateText
import QueryCompiler.Proofs.NumberText
import QueryCompiler.Query.Field

/-!
# How literals and comparisons are cut into tokens

Words, literals, left sides and comparisons are written with blanks, brackets and commas in between,
which no word reaches across (`Spells`). What stands between quotes is one token, whatever it is,
because a quote in it is written twice.
-/

namespace QueryCompiler.OData

/-! ## What is said -/

/-- How the literal of a value is read. -/
def Literal.ofValue : Value → Literal
  | .string s => .quoted s
  | .dateTime t => .marked "datetime" t.documentText
  | v => .bare (literal v)

/-- How a subject is read. -/
def Subject.left : Subject → Left
  | .property name => .property name
  | .ofProperty function name => .call function.name [.bare name]
  | .ofText function name value => .call function.name [.bare name, .ofValue value]
  | .substring name position length =>
    .call "substring" [.bare name, .bare (toString position.toNat), .bare (toString length.toNat)]
  | .concat values => .call "concat" (values.map .ofValue)

/-- The name of a property is an identifier and no connective. -/
def IsName (name : String) : Prop :=
  isIdentifier name = true ∧ name ≠ "and" ∧ name ≠ "or"

/-- The property that a subject is about, if any, has a name. -/
def Subject.IsNamed : Subject → Prop
  | .property name | .ofProperty _ name | .ofText _ name _ | .substring name _ _ => IsName name
  | .concat _ => True

/-! ## Texts and their tokens -/

/-- The tokens that a mark between words stands for. -/
def markTokens? : Char → Option (List Token)
  | ' ' => some []
  | '(' => some [.opening]
  | ')' => some [.closing]
  | ',' => some [.comma]
  | _ => none

/-- A word or a quoted text may end in front of the characters. -/
def Separates (rest : List Char) : Prop :=
  ∀ c ∈ rest.head?, (markTokens? c).isSome

/-- The text is cut into the tokens, in front of any mark. -/
def Spells (text : String) (tokens : List Token) : Prop :=
  ∀ rest, Separates rest →
    Token.ofChars? (text.toList ++ rest) = (Token.ofChars? rest).map (tokens ++ ·)

namespace Token

theorem ofChars?_cons {c : Char} {cs rest : List Char} {token : Token} (hc : c ≠ ' ')
    (h : Grammar.Reads read (c :: cs) token rest) :
    ofChars? (c :: cs) = (ofChars? rest).map (token :: ·) := by
  obtain ⟨hlt, h⟩ := h
  rw [ofChars?]
  · rw [h]
  · exact hc

theorem ofChars?_mark {c : Char} {tokens : List Token} (h : markTokens? c = some tokens)
    (rest : List Char) : ofChars? (c :: rest) = (ofChars? rest).map (tokens ++ ·) := by
  unfold markTokens? at h
  split at h <;> cases h
  · rw [ofChars?]
    simp
  all_goals exact ofChars?_cons (by decide) ⟨_, rfl⟩

theorem isWordChar_eq_false_of_mark {c : Char} (h : (markTokens? c).isSome) :
    isWordChar c = false ∧ c ≠ '\'' := by
  unfold markTokens? at h
  split at h
  all_goals first
    | exact ⟨rfl, by decide⟩
    | cases h

theorem reads_word {c : Char} {cs rest : List Char} (hc : isWordChar c = true)
    (hcs : ∀ d ∈ cs, isWordChar d = true) (hrest : ∀ d ∈ rest.head?, isWordChar d = false) :
    Grammar.Reads read (c :: cs ++ rest) (ofWord (c :: cs)) rest := by
  obtain ⟨htake, hdrop⟩ := Grammar.takeWhile_append hcs hrest
  have hread : read (c :: (cs ++ rest))
      = some (ofWord (c :: (cs ++ rest).takeWhile isWordChar), .behindWhile isWordChar) := by
    rw [read]
    all_goals
      rintro rfl
      cases hc
  rw [htake] at hread
  exact Grammar.Reads.of_eq hread hdrop

theorem reads_quotedText {rest : List Char} (hrest : '\'' ∉ rest.head?) : ∀ text : List Char,
    Grammar.Reads quotedText (text.flatMap quotedChar ++ '\'' :: rest) text rest
  | [] => by
    refine ⟨Nat.lt_succ_self _, ?_⟩
    change quotedText ('\'' :: rest) = _
    rw [quotedText]
    · rfl
    · rintro cs rfl
      exact hrest rfl
  | c :: text => by
    obtain ⟨hlt, ih⟩ := reads_quotedText hrest text
    rw [List.flatMap_cons, List.append_assoc]
    by_cases hc : c = '\''
    · subst hc
      refine ⟨hlt.trans ((Nat.lt_succ_self _).trans (Nat.lt_succ_self _)), ?_⟩
      change quotedText ('\'' :: '\'' :: (text.flatMap quotedChar ++ '\'' :: rest)) = _
      rw [quotedText, ih]
      rfl
    · have hself : quotedChar c = [c] := if_neg hc
      rw [hself]
      refine ⟨hlt.trans (Nat.lt_succ_self _), ?_⟩
      change quotedText (c :: (text.flatMap quotedChar ++ '\'' :: rest)) = _
      rw [quotedText, ih]
      · rfl
      · exact fun cs hc' => absurd hc' hc
      · exact hc

theorem reads_quoted {rest : List Char} (hrest : '\'' ∉ rest.head?) (text : List Char) :
    Grammar.Reads read ('\'' :: (text.flatMap quotedChar ++ '\'' :: rest))
      (quoted (String.ofList text)) rest := by
  obtain ⟨hlt, h⟩ := reads_quotedText hrest text
  refine ⟨hlt.trans (Nat.lt_succ_self _), ?_⟩
  rw [read, h]
  rfl

end Token

/-- A text that is one word and no connective. -/
def IsWord (w : String) : Prop :=
  w.toList ≠ [] ∧ w.toList.all Token.isWordChar = true ∧ w ≠ "and" ∧ w ≠ "or"

instance (w : String) : Decidable (IsWord w) :=
  inferInstanceAs (Decidable (_ ∧ _))

theorem isWord_of_isNumeralChar {w : String} (hne : w.toList ≠ [])
    (h : ∀ c ∈ w.toList, isNumeralChar c = true) : IsWord w := by
  refine ⟨hne, List.all_eq_true.mpr fun c hc => ?_, ?_, ?_⟩
  · refine of_isNumeralChar (p := fun d => Token.isWordChar d = true) (fun d hd => ?_)
      (List.all_eq_true.mp rfl) (h c hc)
    simp only [Token.isWordChar, Bool.and_eq_true, decide_eq_true_eq, ne_eq]
    refine ⟨⟨⟨⟨?_, ?_⟩, ?_⟩, ?_⟩, ?_⟩ <;> rintro rfl <;> cases hd
  · rintro rfl
    exact absurd (h 'a' (by decide)) (by decide)
  · rintro rfl
    exact absurd (h 'o' (by decide)) (by decide)

theorem IsName.isWord {name : String} (h : IsName name) : IsWord name := by
  obtain ⟨hidentifier, hand, hor⟩ := h
  rw [isIdentifier, Bool.and_eq_true, decide_eq_true_eq, List.all_eq_true] at hidentifier
  refine ⟨?_, List.all_eq_true.mpr fun c hc => ?_, hand, hor⟩
  · simpa using hidentifier.1
  · have hchar := hidentifier.2 c hc
    simp only [Token.isWordChar, Bool.and_eq_true, decide_eq_true_eq, ne_eq]
    refine ⟨⟨⟨⟨?_, ?_⟩, ?_⟩, ?_⟩, ?_⟩ <;> rintro rfl <;> cases hchar

theorem Token.ofChars?_word {w : String} (h : IsWord w) {rest : List Char}
    (hrest : ∀ c ∈ rest.head?, isWordChar c = false) :
    ofChars? (w.toList ++ rest) = (ofChars? rest).map (word w :: ·) := by
  obtain ⟨hne, hchars, hand, hor⟩ := h
  obtain ⟨c, cs, hw⟩ := List.exists_cons_of_ne_nil hne
  have hword : ofWord w.toList = word w := by
    rw [ofWord, if_neg (mt String.toList_inj.mp hand), if_neg (mt String.toList_inj.mp hor),
      String.ofList_toList]
  rw [← hword, hw]
  rw [hw] at hchars
  obtain ⟨hc, hcs⟩ := List.forall_mem_cons.mp (List.all_eq_true.mp hchars)
  refine ofChars?_cons ?_ (reads_word hc hcs hrest)
  rintro rfl
  cases hc

namespace Spells

variable {s t : String} {ts us : List Token}

theorem empty : Spells "" [] := by
  intro rest _
  simp

theorem word {w : String} (h : IsWord w) : Spells w [.word w] := by
  intro rest hrest
  exact Token.ofChars?_word h fun c hc => (Token.isWordChar_eq_false_of_mark (hrest c hc)).1

theorem connective (c : Connective) : Spells (connectiveWord c) [.connective c] := by
  intro rest hrest
  have hstop : ∀ d ∈ rest.head?, Token.isWordChar d = false := fun d hd =>
    (Token.isWordChar_eq_false_of_mark (hrest d hd)).1
  cases c with
  | and => exact Token.ofChars?_cons (by decide) (Token.reads_word rfl (List.all_eq_true.mp rfl) hstop)
  | or => exact Token.ofChars?_cons (by decide) (Token.reads_word rfl (List.all_eq_true.mp rfl) hstop)

theorem quoted (text : String) :
    Spells (String.ofList ('\'' :: text.toList.flatMap quotedChar ++ ['\''])) [.quoted text] := by
  intro rest hrest
  have hquote : '\'' ∉ rest.head? := fun h => (Token.isWordChar_eq_false_of_mark (hrest _ h)).2 rfl
  have hread := Token.ofChars?_cons (by decide) (Token.reads_quoted hquote text.toList)
  simpa using hread

/-- A kind in front of a text without quotes. -/
theorem marked {kind text : String} (hkind : IsWord kind) (htext : '\'' ∉ text.toList) :
    Spells (kind ++ "'" ++ text ++ "'") [.word kind, .quoted text] := by
  intro rest hrest
  have hquote : '\'' ∉ rest.head? := fun h => (Token.isWordChar_eq_false_of_mark (hrest _ h)).2 rfl
  have hread := Token.ofChars?_cons (by decide) (Token.reads_quoted hquote text.toList)
  have hplain : text.toList.flatMap quotedChar = text.toList := by
    refine (List.flatMap_congr fun c hc => ?_).trans (List.flatMap_singleton' _)
    exact if_neg (ne_of_mem_of_not_mem hc htext)
  rw [hplain, String.ofList_toList] at hread
  have hstop : ∀ c ∈ ('\'' :: (text.toList ++ '\'' :: rest)).head?, Token.isWordChar c = false := by
    simp [Token.isWordChar]
  have hlist : (kind ++ "'" ++ text ++ "'").toList ++ rest
      = kind.toList ++ '\'' :: (text.toList ++ '\'' :: rest) := by simp
  rw [hlist, Token.ofChars?_word hkind hstop, hread]
  simp [Function.comp_def]

/-- Texts may be put together with a mark in between. -/
theorem mark {c : Char} {cs : List Token} (hc : markTokens? c = some cs) (hs : Spells s ts)
    (ht : Spells t us) : Spells (s ++ String.singleton c ++ t) (ts ++ (cs ++ us)) := by
  intro rest hrest
  have hseparates : Separates (c :: (t.toList ++ rest)) := by simp [Separates, hc]
  have hlist : (s ++ String.singleton c ++ t).toList ++ rest
      = s.toList ++ c :: (t.toList ++ rest) := by simp
  rw [hlist, hs _ hseparates, Token.ofChars?_mark hc, ht rest hrest]
  simp [Function.comp_def]

theorem blank (hs : Spells s ts) (ht : Spells t us) : Spells (s ++ " " ++ t) (ts ++ us) :=
  hs.mark (c := ' ') rfl ht

theorem comma (hs : Spells s ts) (ht : Spells t us) : Spells (s ++ "," ++ t) (ts ++ .comma :: us) :=
  hs.mark (c := ',') rfl ht

theorem enclosed (hs : Spells s ts) (ht : Spells t us) :
    Spells (s ++ "(" ++ t ++ ")") (ts ++ .opening :: (us ++ [.closing])) := by
  have h := (hs.mark (c := '(') rfl ht).mark (c := ')') rfl empty
  simpa using h

theorem separated {texts : List String} {ls : List Literal}
    (h : List.Forall₂ (fun text l => Spells text l.tokens) texts ls) :
    Spells (Text.joined "," texts) (Literal.listTokens ls) := by
  induction h with
  | nil => exact empty
  | @cons text l texts ls hl h ih =>
    cases h with
    | nil => exact hl
    | cons => exact hl.comma ih

theorem call {function : String} (hfunction : IsWord function) {texts : List String}
    {ls : List Literal} (h : List.Forall₂ (fun text l => Spells text l.tokens) texts ls) :
    Spells (call function texts) (Left.call function ls).tokens :=
  (word hfunction).enclosed (separated h)

end Spells

/-! ## Comparisons -/

theorem quote_not_mem_documentText (t : DateTime) : '\'' ∉ t.documentText.toList := by
  intro hmem
  refine DateTime.of_mem_documentText (p := (· ≠ '\'')) ?_ (by simp) t _ hmem rfl
  rintro c hc rfl
  cases hc

theorem spells_literal (v : Value) : Spells (literal v) (Literal.ofValue v).tokens := by
  cases v with
  | null => exact .word (by decide)
  | bool b => cases b <;> exact .word (by decide)
  | integer n => exact .word (isWord_of_isNumeralChar (toList_toString_ne_nil _)
      fun c => isNumeralChar_of_mem_toString)
  | float x =>
    change Spells (literal (.float x)) [.word (literal (.float x))]
    rw [literal]
    split_ifs
    · exact .word (isWord_of_isNumeralChar (FloatLayout.toList_write_ne_nil _ _)
        fun c => FloatLayout.isNumeralChar_of_mem_write _)
    · exact .word (by decide)
  | string s => exact .quoted s
  | dateTime t =>
    have hkind : "datetime'" = "datetime" ++ "'" := rfl
    rw [literal, hkind]
    exact .marked (by decide) (quote_not_mem_documentText t)

theorem spells_subject {subject : Subject} (h : subject.IsNamed) :
    Spells subject.text subject.left.tokens := by
  have hnumber : ∀ n : ℕ, Spells (toString n) [.word (toString n)] := fun n => by
    refine .word (isWord_of_isNumeralChar ?_ ?_) <;> rw [toList_toString_nat]
    · exact Nat.toDigits_ne_nil
    · exact fun c => isNumeralChar_of_mem_toDigits
  cases subject with
  | property name => exact .word h.isWord
  | ofProperty function name =>
    refine .call ?_ (.cons (.word h.isWord) .nil)
    cases function <;> decide
  | ofText function name value =>
    refine .call ?_ (.cons (.word h.isWord) (.cons (spells_literal value) .nil))
    cases function <;> decide
  | substring name position length =>
    refine .call (by decide) (.cons (.word h.isWord) (.cons ?_ (.cons ?_ .nil)))
    · exact hnumber _
    · exact hnumber _
  | concat values =>
    refine .call (by decide) (List.forall₂_map_left_iff.mpr (List.forall₂_map_right_iff.mpr ?_))
    exact List.forall₂_same.mpr fun v _ => spells_literal v

/-- What a comparison of a subject says. -/
def Comparison.of (subject : Subject) (relation : Relation) (v : Value) : Comparison :=
  ⟨subject.left, relation, .ofValue v⟩

theorem spells_atom {subject : Subject} (h : subject.IsNamed) (relation : Relation) (v : Value) :
    Spells (atom subject.text relation v) (Comparison.of subject relation v).tokens := by
  have hrelation : IsWord relation.word := by cases relation <;> decide
  have hatom := ((spells_subject h).blank (.word hrelation)).blank (spells_literal v)
  rwa [List.append_assoc] at hatom

end QueryCompiler.OData
