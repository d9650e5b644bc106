import Mathlib
import QueryCompiler.Closure.Token
import QueryCompiler.Proofs.Readers

/-!
# Tokens and their spellings

A text in which tokens are spelled one after another is cut into these tokens again
(`Token.all?_of_spaced`). White space and comments may stand around them, or nothing at all where
one token cannot be taken for a part of the next (`Token.Apart`).
-/

namespace QueryCompiler.Closure

open Grammar

namespace Token

/-- How the token is written. -/
def spelling : Token → List Char
  | word w => w.toList
  | numeral raw => raw.toList
  | quoted quote body => quote :: (body.toList ++ [quote])
  | mark m => m.toList

/-! ## Between tokens -/

/-- A comment up to its end. -/
inductive IsComment : List Char → Prop
  | block {body : List Char} (h : ¬ ['*', '/'] <:+: body) :
      IsComment ('/' :: '*' :: (body ++ ['*', '/']))
  | line {body : List Char} {stop : Char} (hbody : ∀ c ∈ body, endsLine c = false)
      (hstop : endsLine stop = true) : IsComment ('/' :: '/' :: (body ++ [stop]))

/-- White space and comments. -/
inductive IsFiller : List Char → Prop
  | nil : IsFiller []
  | blank {c : Char} {cs : List Char} (hc : isBlank c = true) (h : IsFiller cs) : IsFiller (c :: cs)
  | comment {comment cs : List Char} (hcomment : IsComment comment) (h : IsFiller cs) :
      IsFiller (comment ++ cs)

/-- What may stand between tokens: nothing, or white space with comments behind it. -/
structure IsGap (cs : List Char) : Prop where
  filler : IsFiller cs
  blank : ∀ c ∈ cs.head?, isBlank c = true

/-- The text spells the tokens in their order, with gaps around them. -/
inductive Spaced : List Token → List Char → Prop
  | nil {gap : List Char} (h : IsGap gap) : Spaced [] gap
  | cons {gap cs : List Char} {x : Token} {xs : List Token} (h : IsGap gap) (hs : Spaced xs cs) :
      Spaced (x :: xs) (gap ++ (x.spelling ++ cs))

theorem all?_blank {c : Char} (hc : isBlank c = true) (cs : List Char) : all? (c :: cs) = all? cs := by
  have hslash : c ≠ '/' := by
    rintro rfl
    cases hc
  rw [all?]
  · rw [if_pos hc]
  · rintro _ rfl
    exact absurd rfl hslash
  · rintro _ rfl
    exact absurd rfl hslash

theorem eq_of_endsLine {c : Char} (h : endsLine c = true) : c = '\r' ∨ c = '\n' := by
  simpa [endsLine] using h

theorem isBlank_of_endsLine {c : Char} (h : endsLine c = true) : isBlank c = true := by
  rcases eq_of_endsLine h with rfl | rfl <;> rfl

theorem all?_block {cs rest : List Char} {hlt : rest.length < cs.length}
    (h : afterComment? cs = some ⟨rest, hlt⟩) : all? ('/' :: '*' :: cs) = all? rest := by
  rw [all?]
  split
  · rename_i hnone
    rw [h] at hnone
    cases hnone
  · rename_i hsome
    rw [h] at hsome
    cases hsome
    rfl

theorem all?_line (cs : List Char) :
    all? ('/' :: '/' :: cs) = all? (cs.dropWhile fun c => !endsLine c) := by
  rw [all?]

theorem afterComment?_append : ∀ {body : List Char}, ¬ ['*', '/'] <:+: body → ∀ rest : List Char,
    ∃ hlt, afterComment? (body ++ '*' :: '/' :: rest) = some ⟨rest, hlt⟩
  | [], _, rest => ⟨by simp, rfl⟩
  | c :: cs, h, rest => by
    have hcs : ¬ ['*', '/'] <:+: cs := fun hstar => h (hstar.trans (List.suffix_cons c cs).isInfix)
    obtain ⟨hlt, hafter⟩ := afterComment?_append hcs rest
    rw [List.cons_append]
    refine ⟨hlt.trans (Nat.lt_succ_self _), ?_⟩
    rw [afterComment?]
    · rw [hafter]
      rfl
    · -- A star with a slash behind it would stand in the body.
      rintro tail rfl htail
      cases cs with
      | nil => cases htail
      | cons d ds =>
        cases htail
        exact h ⟨[], ds, rfl⟩

theorem all?_comment {comment : List Char} (h : IsComment comment) (cs : List Char) :
    all? (comment ++ cs) = all? cs := by
  cases h with
  | @block body h =>
    obtain ⟨hlt, hafter⟩ := afterComment?_append h cs
    have htext : '/' :: '*' :: (body ++ ['*', '/']) ++ cs
        = '/' :: '*' :: (body ++ '*' :: '/' :: cs) := by simp
    rw [htext, all?_block hafter]
  | @line body stop hbody hstop =>
    have htext : '/' :: '/' :: (body ++ [stop]) ++ cs = '/' :: '/' :: (body ++ stop :: cs) := by simp
    have hdrop : (body ++ stop :: cs).dropWhile (fun c => !endsLine c) = stop :: cs := by
      rw [List.dropWhile_append_of_pos (by simpa using hbody)]
      simp [hstop]
    rw [htext, all?_line, hdrop, all?_blank (isBlank_of_endsLine hstop)]

theorem all?_filler {gap : List Char} (h : IsFiller gap) (cs : List Char) :
    all? (gap ++ cs) = all? cs := by
  induction h with
  | nil => rfl
  | blank hc _ ih => rw [List.cons_append, all?_blank hc, ih]
  | comment hcomment _ ih => rw [List.append_assoc, all?_comment hcomment, ih]

/-! ## Single tokens -/

/-- The marks of expressions. -/
def expressionMarks : List String :=
  ["===", "!==", "==", "!=", ">=", "<=", "||", "&&", "(", ")", ".", ",", "+", "-", "*", "/", "%", "!",
   ">", "<"]

/-- A text between quotes, with a backslash in front of each quote of the sort and each backslash. -/
def escaped (quote : Char) : List Char → List Char
  | [] => []
  | c :: cs => if c = quote ∨ c = '\\' then '\\' :: c :: escaped quote cs else c :: escaped quote cs

/-- The token is a word, digits, an escaped text or a mark of expressions. -/
def WellSpelled : Token → Prop
  | word w => ∃ c cs, w.toList = c :: cs ∧ startsName c = true ∧ ∀ d ∈ cs, isNameChar d = true
  | numeral raw => raw.toList ≠ [] ∧ ∀ c ∈ raw.toList, c.isDigit = true
  | quoted quote body => (quote = '\'' ∨ quote = '"') ∧ ∃ cs, body.toList = escaped quote cs
  | mark m => m ∈ expressionMarks

/-- The token does not go on in what follows it. -/
def StopsAt : Token → List Char → Prop
  | word _, rest => ∀ c ∈ rest.head?, isNameChar c = false
  | numeral _, rest => ∀ c ∈ rest.head?, c.isDigit = false ∧ Text.startsExponent c = false ∧
      (c = '.' → ∀ d ∈ rest.tail.head?, d.isDigit = false)
  | quoted _ _, _ => True
  | mark m, rest => m = ")" ∨ ∀ c ∈ rest.head?, c ∉ ['=', '/', '*']

theorem reads_quotedBody {quote : Char} (hquote : quote = '\'' ∨ quote = '"') :
    ∀ cs rest : List Char,
      Reads (quotedBody quote) (escaped quote cs ++ quote :: rest) (escaped quote cs) rest
  | [], rest => by
    rw [escaped, List.nil_append]
    refine ⟨Nat.lt_succ_self _, ?_⟩
    rw [quotedBody.eq_def]
    exact if_pos rfl
  | c :: cs, rest => by
    have hbackslash : '\\' ≠ quote := by
      rintro rfl
      rcases hquote with h | h <;> cases h
    obtain ⟨hlt, h⟩ := reads_quotedBody hquote cs rest
    rw [escaped]
    split_ifs with hc
    · rw [List.cons_append, List.cons_append]
      refine ⟨hlt.trans (by simp), ?_⟩
      rw [quotedBody, if_neg hbackslash, if_pos rfl]
      simp only [h, Option.map_some]
      rfl
    · obtain ⟨hcquote, hcbackslash⟩ := not_or.mp hc
      rw [List.cons_append]
      refine ⟨hlt.trans (by simp), ?_⟩
      rw [quotedBody.eq_def]
      simp only [if_neg hcquote, if_neg hcbackslash, h, Option.map_some]
      rfl

theorem numeralLength_append {digits rest : List Char} (hdigits : ∀ c ∈ digits, c.isDigit = true)
    (hrest : ∀ c ∈ rest.head?, c.isDigit = false ∧ Text.startsExponent c = false ∧
      (c = '.' → ∀ d ∈ rest.tail.head?, d.isDigit = false)) :
    Text.numeralLength (digits ++ rest) = digits.length := by
  have hcount : Text.digitCount (digits ++ rest) = digits.length := by
    unfold Text.digitCount
    rw [List.takeWhile_append_of_pos hdigits]
    cases rest with
    | nil => simp
    | cons c cs => simp [(hrest c rfl).1]
  have hfraction : Text.fractionLength rest = 0 := by
    unfold Text.fractionLength
    split
    · rename_i cs
      have hcs : Text.digitCount cs = 0 := by
        cases cs with
        | nil => rfl
        | cons d ds => simp [Text.digitCount, (hrest '.' rfl).2.2 rfl d rfl]
      rw [if_pos hcs]
    · rfl
  have hexponent : Text.exponentLength rest = 0 := by
    cases rest with
    | nil => rfl
    | cons c cs => simp [Text.exponentLength, (hrest c rfl).2.1]
  simp [Text.numeralLength, hcount, hfraction, hexponent]

/-- A mark of expressions that another mark begins with ends before an equals sign. -/
theorem getElem?_of_isPrefixOf : ∀ m ∈ expressionMarks, ∀ k ∈ marks,
    m.toList.isPrefixOf k.toList = true → m = k ∨ (m ≠ ")" ∧ k.toList[m.length]? = some '=') := by
  decide

theorem find?_marks_self : ∀ m ∈ expressionMarks,
    (marks.find? fun k => k.toList.isPrefixOf m.toList) = some m := by
  decide

theorem find?_marks {m : String} (hm : m ∈ expressionMarks) {rest : List Char}
    (h : (mark m).StopsAt rest) :
    (marks.find? fun k => k.toList.isPrefixOf (m.toList ++ rest)) = some m := by
  rw [← find?_marks_self m hm]
  refine List.find?_congr fun k hk => ?_
  rw [Bool.eq_iff_iff, List.isPrefixOf_iff_prefix, List.isPrefixOf_iff_prefix]
  refine ⟨fun hprefix => ?_, fun hprefix => hprefix.trans (List.prefix_append _ _)⟩
  rcases List.prefix_or_prefix_of_prefix hprefix (List.prefix_append m.toList rest) with hk' | hm'
  · exact hk'
  · obtain rfl | ⟨hne, hequals⟩ := getElem?_of_isPrefixOf m hm k hk (List.isPrefixOf_iff_prefix.mpr hm')
    · exact List.prefix_rfl
    · -- The mark would go on in what follows.
      obtain ⟨more, hmore⟩ := hm'
      obtain ⟨last, hlast⟩ := hprefix
      rw [← hmore, List.append_assoc, List.append_cancel_left_eq] at hlast
      rw [← hmore, ← String.length_toList, List.getElem?_append_right le_rfl, Nat.sub_self] at hequals
      have hhead : '=' ∈ rest.head? := by
        rw [← hlast, List.head?_append, List.head?_eq_getElem?, hequals]
        rfl
      rcases h with rfl | h
      · exact absurd rfl hne
      · exact absurd (by simp) (h '=' hhead)

theorem ne_nil_of_mem_expressionMarks : ∀ m ∈ expressionMarks, m.toList ≠ [] := by decide

/-- The character is no white space, does not belong to a name and opens no text. -/
def beginsMark (c : Char) : Bool :=
  !isBlank c && !isNameChar c && c != '\'' && c != '"'

theorem beginsMark_of_mem_expressionMarks : ∀ m ∈ expressionMarks,
    m.toList.head?.all beginsMark = true := by
  decide

theorem eq_slash_of_mem_expressionMarks : ∀ m ∈ expressionMarks,
    m.toList.head? = some '/' → m = "/" := by
  decide

theorem eq_point_of_mem_expressionMarks : ∀ m ∈ expressionMarks,
    m.toList.head? = some '.' → m = "." := by
  decide

theorem startsName_of_isDigit {c : Char} (h : c.isDigit = true) : startsName c = false := by
  have hc : 48 ≤ c.toNat ∧ c.toNat ≤ 57 := by simpa [Char.isDigit, UInt32.le_iff_toNat_le] using h
  have hne : c ≠ '_' ∧ c ≠ '$' := by
    constructor <;> rintro rfl <;> revert hc <;> decide
  have halpha : c.isAlpha = false := by
    simp only [Char.isAlpha, Char.isUpper, Char.isLower, UInt32.le_iff_toNat_le, ge_iff_le,
      Bool.or_eq_false_iff, Bool.and_eq_false_iff, decide_eq_false_iff_not]
    change ¬ (65 ≤ c.toNat ∧ c.toNat ≤ 90) ∧ (¬ 97 ≤ c.toNat ∨ ¬ c.toNat ≤ 122)
    omega
  simp [startsName, halpha, hne]

theorem isNameChar_of_startsName {c : Char} (h : startsName c = true) : isNameChar c = true := by
  simp only [startsName, isNameChar, Char.isAlphanum, decide_eq_true_eq, Bool.or_eq_true] at h ⊢
  tauto

theorem isNameChar_of_isDigit {c : Char} (h : c.isDigit = true) : isNameChar c = true := by
  simp [isNameChar, Char.isAlphanum, h]

theorem startsName_of_isNameChar {c : Char} (h : isNameChar c = false) : startsName c = false := by
  simp_all [isNameChar, startsName, Char.isAlphanum]

theorem isDigit_of_isNameChar {c : Char} (h : isNameChar c = false) : c.isDigit = false := by
  simp_all [isNameChar, Char.isAlphanum]

theorem startsExponent_of_isNameChar {c : Char} (h : isNameChar c = false) :
    Text.startsExponent c = false := by
  by_contra hc
  simp only [Text.startsExponent, Bool.decide_or, Bool.or_eq_false_iff, decide_eq_false_iff_not] at hc
  obtain rfl | rfl : c = 'e' ∨ c = 'E' := by tauto
  · cases h
  · cases h

theorem isNameChar_of_isBlank {c : Char} (h : isBlank c = true) : isNameChar c = false := by
  have hc : c = ' ' ∨ c = '\t' ∨ c = '\r' ∨ c = '\n' := by simpa [isBlank] using h
  rcases hc with rfl | rfl | rfl | rfl <;> decide

theorem WellSpelled.word_first {w : String} (h : (word w).WellSpelled) :
    ∃ c cs, w.toList = c :: cs ∧ startsName c = true ∧ isNameChar c = true := by
  obtain ⟨c, cs, hw, hc, -⟩ := h
  exact ⟨c, cs, hw, hc, isNameChar_of_startsName hc⟩

theorem WellSpelled.numeral_first {raw : String} (h : (numeral raw).WellSpelled) :
    ∃ c cs, raw.toList = c :: cs ∧ isNameChar c = true := by
  obtain ⟨c, cs, hraw⟩ := List.exists_cons_of_ne_nil h.1
  exact ⟨c, cs, hraw, isNameChar_of_isDigit (h.2 c (by simp [hraw]))⟩

theorem WellSpelled.mark_first {m : String} (h : (mark m).WellSpelled) :
    ∃ c cs, m.toList = c :: cs ∧ beginsMark c = true := by
  obtain ⟨c, cs, hm⟩ := List.exists_cons_of_ne_nil (ne_nil_of_mem_expressionMarks m h)
  exact ⟨c, cs, hm, by simpa [hm] using beginsMark_of_mem_expressionMarks m h⟩

theorem reads_read {x : Token} (hx : x.WellSpelled) {rest : List Char} (h : x.StopsAt rest) :
    Reads read (x.spelling ++ rest) x rest := by
  cases x with
  | word w =>
    obtain ⟨c, cs, hw, hc, hcs⟩ := hx
    obtain ⟨htake, hdrop⟩ := takeWhile_append hcs h
    rw [spelling, hw, List.cons_append]
    refine .of_eq (r := .behindWhile isNameChar) ?_ hdrop
    rw [read, if_pos hc, htake, ← hw, String.ofList_toList]
  | numeral raw =>
    obtain ⟨hne, hdigits⟩ := hx
    have hlength := numeralLength_append hdigits h
    obtain ⟨c, cs, hraw⟩ := List.exists_cons_of_ne_nil hne
    have hc : c.isDigit = true := hdigits c (by simp [hraw])
    rw [spelling, hraw, List.cons_append]
    rw [hraw, List.cons_append] at hlength
    have htake : (c :: (cs ++ rest)).take (cs.length + 1) = raw.toList := by simp [hraw]
    refine .of_eq (r := .behind cs.length) ?_ (by simp [Rest.behind])
    rw [read, if_neg (by simp [startsName_of_isDigit hc]), if_pos hc]
    simp only [hlength, List.length_cons, htake, String.ofList_toList, Nat.add_sub_cancel]
  | quoted quote body =>
    obtain ⟨hquote, cs, hbody⟩ := hx
    have hfirst : startsName quote = false ∧ quote.isDigit = false := by
      rcases hquote with rfl | rfl <;> decide
    obtain ⟨hlt, hread⟩ := reads_quotedBody hquote cs rest
    rw [spelling, hbody, List.cons_append, List.append_assoc, List.singleton_append]
    refine .of_eq (r := Rest.later ⟨rest, hlt⟩) ?_ rfl
    rw [read, if_neg (by simp [hfirst.1]), if_neg (by simp [hfirst.2]), if_pos hquote, hread,
      Option.map_some]
    simp only [← hbody, String.ofList_toList]
  | mark m =>
    have hfind := find?_marks hx h
    obtain ⟨c, cs, hcs, hc⟩ := hx.mark_first
    simp only [beginsMark, Bool.and_eq_true, Bool.not_eq_true', bne_iff_ne] at hc
    obtain ⟨⟨⟨-, hname⟩, hsingle⟩, hdouble⟩ := hc
    have hlength : m.length - 1 = cs.length := by rw [← String.length_toList, hcs]; rfl
    rw [hcs, List.cons_append] at hfind
    rw [spelling, hcs, List.cons_append]
    refine .of_eq (r := .behind cs.length) ?_ (by simp [Rest.behind])
    rw [read, if_neg (by simp [startsName_of_isNameChar hname]),
      if_neg (by simp [isDigit_of_isNameChar hname]), if_neg (by simp [hsingle, hdouble]), hfind,
      Option.map_some, hlength]

/-- A token begins neither a gap nor a comment. -/
theorem exists_spelling {x : Token} (hx : x.WellSpelled) :
    ∃ c cs, x.spelling = c :: cs ∧ isBlank c = false ∧ (c = '/' → x = mark "/") := by
  have hnone : ∀ {c}, isNameChar c = true → isBlank c = false ∧ (c = '/' → x = mark "/") := by
    intro c hc
    constructor
    · by_contra hblank
      rw [isNameChar_of_isBlank (by simpa using hblank)] at hc
      cases hc
    · rintro rfl
      cases hc
  cases x with
  | word w =>
    obtain ⟨c, cs, hw, -, hc⟩ := hx.word_first
    exact ⟨c, cs, hw, hnone hc⟩
  | numeral raw =>
    obtain ⟨c, cs, hraw, hc⟩ := hx.numeral_first
    exact ⟨c, cs, hraw, hnone hc⟩
  | quoted quote body =>
    refine ⟨quote, _, rfl, ?_⟩
    rcases hx.1 with rfl | rfl
    · exact ⟨by decide, fun h => absurd h (by decide)⟩
    · exact ⟨by decide, fun h => absurd h (by decide)⟩
  | mark m =>
    obtain ⟨c, cs, hm, hc⟩ := hx.mark_first
    simp only [beginsMark, Bool.and_eq_true, Bool.not_eq_true'] at hc
    refine ⟨c, cs, hm, hc.1.1.1, ?_⟩
    rintro rfl
    rw [eq_slash_of_mem_expressionMarks m hx (by rw [hm]; rfl)]

/-- A token at the front that neither a gap nor a comment begins is the first of the tokens. -/
theorem all?_cons {c : Char} {cs rest : List Char} {x : Token} (h : Reads read (c :: cs) x rest)
    (hblank : isBlank c = false) (hcomment : ∀ d ds, c = '/' → cs = d :: ds → d ∉ ['/', '*']) :
    all? (c :: cs) = (all? rest).map (x :: ·) := by
  obtain ⟨hlt, hread⟩ := h
  rw [all?]
  · rw [if_neg (by simp [hblank])]
    split
    · rename_i hnone
      rw [hread] at hnone
      cases hnone
    · rename_i hsome
      rw [hread] at hsome
      cases hsome
      rfl
  · rintro ds hc hds
    exact absurd (by simp) (hcomment '*' ds hc hds)
  · rintro ds hc hds
    exact absurd (by simp) (hcomment '/' ds hc hds)

theorem all?_spelling {x : Token} (hx : x.WellSpelled) {rest : List Char} (h : x.StopsAt rest) :
    all? (x.spelling ++ rest) = (all? rest).map (x :: ·) := by
  have hreads := reads_read hx h
  obtain ⟨c, cs, hcs, hblank, hslash⟩ := exists_spelling hx
  rw [hcs, List.cons_append] at hreads ⊢
  refine all?_cons hreads hblank ?_
  -- Only a slash can open a comment, and it stops before a second slash or a star.
  rintro d ds rfl hrest
  obtain rfl := hslash rfl
  cases hcs
  have hhead := h.resolve_left (by decide) d (by rw [← List.nil_append rest, hrest]; rfl)
  simp_all

/-! ## Tokens next to each other -/

/-- The token can be the first of an operand. -/
def BeginsOperand : Token → Prop
  | mark m => m ∈ ["(", "!", "-"]
  | _ => True

/-- The token can be the last of an operand. -/
def EndsOperand : Token → Prop
  | mark m => m = ")"
  | _ => True

/-- The tokens stay two even without a gap between them. -/
inductive Apart : Token → Token → Prop
  | behindOperand {x : Token} {m : String} (h : x.EndsOperand) : Apart x (mark m)
  | beforeOperand {m : String} {y : Token} (hm : m ≠ ".") (h : y.BeginsOperand) : Apart (mark m) y
  | property {w : String} : Apart (mark ".") (word w)
  | noArguments : Apart (mark "(") (mark ")")

theorem IsGap.eq_nil_or {gap : List Char} (h : IsGap gap) :
    gap = [] ∨ ∃ c cs, gap = c :: cs ∧ isBlank c = true := by
  cases gap with
  | nil => exact .inl rfl
  | cons c cs => exact .inr ⟨c, cs, rfl, h.blank c rfl⟩

theorem stopsAt_nil (x : Token) : x.StopsAt [] := by
  cases x with
  | mark m => exact .inr (by simp)
  | word | numeral | quoted => simp [StopsAt]

theorem stopsAt_blank (x : Token) {c : Char} (hc : isBlank c = true) (cs : List Char) :
    x.StopsAt (c :: cs) := by
  have hname := isNameChar_of_isBlank hc
  cases x with
  | word w => simpa [StopsAt] using hname
  | numeral raw =>
    rintro d ⟨⟩
    refine ⟨isDigit_of_isNameChar hname, startsExponent_of_isNameChar hname, ?_⟩
    rintro rfl
    cases hc
  | quoted => trivial
  | mark m =>
    refine .inr ?_
    rintro d ⟨⟩ hd
    simp only [List.mem_cons, List.not_mem_nil, or_false] at hd
    rcases hd with rfl | rfl | rfl <;> cases hc

/-- What begins an operand is no part of a mark or of a comment. -/
theorem stopsAt_mark_of_beginsOperand {m : String} {y : Token} (hy : y.WellSpelled)
    (h : y.BeginsOperand) (rest : List Char) : (mark m).StopsAt (y.spelling ++ rest) := by
  have hname : ∀ c, isNameChar c = true → c ∉ ['=', '/', '*'] := by
    intro c hc hmem
    simp only [List.mem_cons, List.not_mem_nil, or_false] at hmem
    rcases hmem with rfl | rfl | rfl <;> cases hc
  refine .inr ?_
  cases y with
  | word w =>
    obtain ⟨c, cs, hw, -, hc⟩ := hy.word_first
    rw [spelling, hw]
    rintro d ⟨⟩
    exact hname c hc
  | numeral raw =>
    obtain ⟨c, cs, hraw, hc⟩ := hy.numeral_first
    rw [spelling, hraw]
    rintro d ⟨⟩
    exact hname c hc
  | quoted quote body =>
    rintro d ⟨⟩
    rcases hy.1 with rfl | rfl <;> decide
  | mark k =>
    simp only [BeginsOperand, List.mem_cons, List.not_mem_nil, or_false] at h
    rcases h with rfl | rfl | rfl <;> simp [spelling]

theorem stopsAt_of_apart {x y : Token} (h : Apart x y) (hy : y.WellSpelled) {rest : List Char}
    (hdot : y = mark "." → ∀ c ∈ rest.head?, c.isDigit = false) : x.StopsAt (y.spelling ++ rest) := by
  cases h with
  | @behindOperand _ m h =>
    obtain ⟨c, cs, hm, hc⟩ := hy.mark_first
    simp only [beginsMark, Bool.and_eq_true, Bool.not_eq_true'] at hc
    have hname : isNameChar c = false := hc.1.1.2
    rw [spelling, hm]
    cases x with
    | word w => simpa [StopsAt] using hname
    | numeral raw =>
      rintro d ⟨⟩
      refine ⟨isDigit_of_isNameChar hname, startsExponent_of_isNameChar hname, ?_⟩
      rintro rfl
      obtain rfl := eq_point_of_mem_expressionMarks m hy (by rw [hm]; rfl)
      cases hm
      exact hdot rfl
    | quoted => trivial
    | mark k => exact .inl h
  | beforeOperand _ h => exact stopsAt_mark_of_beginsOperand hy h rest
  | property => exact stopsAt_mark_of_beginsOperand hy trivial rest
  | noArguments => simp [StopsAt, spelling]

theorem Apart.word_of_point {y : Token} (h : Apart (mark ".") y) : ∃ w, y = word w := by
  generalize hx : mark "." = x at h
  cases h with
  | behindOperand h =>
    subst hx
    exact absurd h (by simp [EndsOperand])
  | beforeOperand hm =>
    injection hx with hx
    exact absurd hx.symm hm
  | property => exact ⟨_, rfl⟩
  | noArguments => simp at hx

/-- Behind the point of a property there is no digit. -/
theorem isDigit_of_spaced {xs : List Token} {cs : List Char} (h : Spaced xs cs)
    (hapart : (mark "." :: xs).IsChain Apart) (hspelled : ∀ x ∈ xs, x.WellSpelled) :
    ∀ c ∈ cs.head?, c.isDigit = false := by
  have hgap : ∀ {c}, isBlank c = true → c.isDigit = false := fun hc =>
    isDigit_of_isNameChar (isNameChar_of_isBlank hc)
  cases h with
  | nil h => exact fun c hc => hgap (h.blank c hc)
  | @cons gap rest y ys h =>
    obtain rfl | ⟨c, cs, rfl, hc⟩ := h.eq_nil_or
    · obtain ⟨w, rfl⟩ := (List.isChain_cons_cons.mp hapart).1.word_of_point
      obtain ⟨c, cs, hw, hc, -⟩ := (hspelled (word w) List.mem_cons_self).word_first
      rw [spelling, hw]
      rintro d ⟨⟩
      by_contra hdigit
      rw [startsName_of_isDigit (by simpa using hdigit)] at hc
      cases hc
    · rintro d ⟨⟩
      exact hgap hc

theorem stopsAt_of_spaced {x : Token} {xs : List Token} {cs : List Char} (h : Spaced xs cs)
    (hapart : (x :: xs).IsChain Apart) (hspelled : ∀ y ∈ xs, y.WellSpelled) : x.StopsAt cs := by
  cases h with
  | nil h =>
    obtain rfl | ⟨c, cs, rfl, hc⟩ := h.eq_nil_or
    · exact stopsAt_nil x
    · exact stopsAt_blank x hc cs
  | @cons gap rest y ys h hs =>
    obtain ⟨hxy, hys⟩ := List.isChain_cons_cons.mp hapart
    obtain rfl | ⟨c, cs, rfl, hc⟩ := h.eq_nil_or
    · refine stopsAt_of_apart hxy (hspelled y List.mem_cons_self) ?_
      rintro rfl
      exact isDigit_of_spaced hs hys fun z hz => hspelled z (List.mem_cons_of_mem _ hz)
    · exact stopsAt_blank x hc _

/-- A text is cut into the tokens that it spells. -/
theorem all?_of_spaced {xs : List Token} {cs : List Char} (h : Spaced xs cs)
    (hapart : xs.IsChain Apart) (hspelled : ∀ x ∈ xs, x.WellSpelled) : all? cs = some xs := by
  induction h with
  | @nil gap h =>
    rw [← List.append_nil gap, all?_filler h.filler, all?]
  | @cons gap cs x xs h hs ih =>
    have hxs : ∀ y ∈ xs, y.WellSpelled := fun y hy => hspelled y (List.mem_cons_of_mem _ hy)
    have hstops : x.StopsAt cs := stopsAt_of_spaced hs hapart hxs
    rw [all?_filler h.filler, all?_spelling (hspelled x List.mem_cons_self) hstops,
      ih hapart.tail hxs]
    rfl

end Token

end QueryCompiler.Closure
