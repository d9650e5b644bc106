import QueryCompiler.Proofs.Boundaries
import QueryCompiler.Proofs.Spelling

/-!
# Tokens at the end of a line

No token goes on over the end of a line, but for a text between quotes, and that one has its closing
quote. So the tokens of a text in front of a line break are the tokens of the text, whatever stands
behind the break (`Token.all?_append_lineEnd`); a comment up to the end of the line ends there too.
-/

namespace QueryCompiler

theorem takeWhile_append_stop {τ : Type} {p : τ → Bool} {stop : τ} (hstop : p stop = false)
    (xs rest : List τ) : (xs ++ stop :: rest).takeWhile p = xs.takeWhile p ∧
      (xs ++ stop :: rest).dropWhile p = xs.dropWhile p ++ stop :: rest := by
  induction xs with
  | nil => simp [hstop]
  | cons x xs ih => by_cases hx : p x <;> simp [hx, ih]

theorem prefix_append_cons_iff {τ : Type} {x : τ} {xs ys zs : List τ} (hx : x ∉ xs) :
    xs <+: ys ++ x :: zs ↔ xs <+: ys := by
  refine ⟨fun h => ?_, fun h => h.trans (List.prefix_append _ _)⟩
  rcases List.prefix_or_prefix_of_prefix h (List.prefix_append ys (x :: zs)) with hxs | ⟨more, rfl⟩
  · exact hxs
  · rw [List.prefix_append_right_inj] at h
    cases more with
    | nil => rw [List.append_nil]
    | cons y more =>
      rw [List.cons_prefix_cons] at h
      exact absurd (by simp [h.1]) hx

/-! ## Numerals -/

namespace Text

theorem digitCount_le (cs : List Char) : digitCount cs ≤ cs.length :=
  (List.takeWhile_sublist _).length_le

theorem fractionLength_le (cs : List Char) : fractionLength cs ≤ cs.length := by
  unfold fractionLength
  split
  · rename_i ds
    have hdigits := digitCount_le ds
    rw [List.length_cons]
    split_ifs <;> omega
  · exact Nat.zero_le _

theorem exponentLength_le (cs : List Char) : exponentLength cs ≤ cs.length := by
  unfold exponentLength
  split
  · rename_i c ds
    have hdigits := fun sign => digitCount_le (ds.drop sign)
    simp only [List.length_drop] at hdigits
    dsimp only
    generalize (if ds.head? = some '+' ∨ ds.head? = some '-' then 1 else 0) = sign
    have hsign := hdigits sign
    rw [List.length_cons]
    split_ifs <;> omega
  · exact Nat.zero_le _

theorem length_number_le (cs : List Char) :
    digitCount cs + fractionLength (cs.drop (digitCount cs)) ≤ cs.length := by
  have hwhole := digitCount_le cs
  have hfraction := fractionLength_le (cs.drop (digitCount cs))
  rw [List.length_drop] at hfraction
  omega

theorem numeralLength_le (cs : List Char) : numeralLength cs ≤ cs.length := by
  have hnumber := length_number_le cs
  have hexponent :=
    exponentLength_le (cs.drop (digitCount cs + fractionLength (cs.drop (digitCount cs))))
  rw [List.length_drop] at hexponent
  unfold numeralLength
  dsimp only
  omega

section

variable {stop : Char} (hstop : stop = '\r' ∨ stop = '\n') (cs rest : List Char)

include hstop

theorem digitCount_append_lineEnd : digitCount (cs ++ stop :: rest) = digitCount cs := by
  have hdigit : stop.isDigit = false := by
    rcases hstop with rfl | rfl <;> rfl
  rw [digitCount, (takeWhile_append_stop hdigit cs rest).1]
  rfl

theorem fractionLength_append_lineEnd :
    fractionLength (cs ++ stop :: rest) = fractionLength cs := by
  cases cs with
  | nil => rcases hstop with rfl | rfl <;> rfl
  | cons c cs =>
    by_cases hc : c = '.'
    · subst hc
      rw [List.cons_append, fractionLength, fractionLength, digitCount_append_lineEnd hstop]
    · unfold fractionLength
      simp [hc]

theorem exponentLength_append_lineEnd :
    exponentLength (cs ++ stop :: rest) = exponentLength cs := by
  cases cs with
  | nil => rcases hstop with rfl | rfl <;> rfl
  | cons c cs =>
    rw [List.cons_append, exponentLength, exponentLength]
    cases cs with
    | nil =>
      have hsign : stop ≠ '+' ∧ stop ≠ '-' := by
        rcases hstop with rfl | rfl <;> decide
      have hcount := digitCount_append_lineEnd hstop [] rest
      rw [List.nil_append] at hcount
      simp [hsign, hcount]
    | cons d ds =>
      have hdrop : ∀ sign ≤ 1, digitCount ((d :: ds ++ stop :: rest).drop sign) =
          digitCount ((d :: ds).drop sign) := by
        intro sign hle
        have hlength : sign ≤ (d :: ds).length := hle.trans (Nat.le_add_left 1 ds.length)
        rw [List.drop_append_of_le_length hlength, digitCount_append_lineEnd hstop]
      rw [List.cons_append] at hdrop ⊢
      dsimp only
      rw [List.head?_cons, List.head?_cons, hdrop _ (by split_ifs <;> decide)]

theorem numeralLength_append_lineEnd : numeralLength (cs ++ stop :: rest) = numeralLength cs := by
  unfold numeralLength
  simp only [digitCount_append_lineEnd hstop, List.drop_append_of_le_length (digitCount_le cs),
    fractionLength_append_lineEnd hstop, List.drop_append_of_le_length (length_number_le cs),
    exponentLength_append_lineEnd hstop]

end

end Text

namespace Closure.Token

open Grammar

/-! ## Tokens -/

section

variable {quote c : Char} {cs rest : List Char}

theorem outcome_quotedBody_quote : (quotedBody quote).outcome (quote :: cs) = some ([], cs) := by
  rw [Reader.outcome, quotedBody.eq_def]
  dsimp only
  rw [if_pos rfl]
  rfl

theorem outcome_quotedBody_escape (h : '\\' ≠ quote) :
    (quotedBody quote).outcome ('\\' :: c :: cs) =
      ((quotedBody quote).outcome cs).map fun (body, rest) => ('\\' :: c :: body, rest) := by
  rw [Reader.outcome, Reader.outcome, quotedBody, if_neg h, if_pos rfl, Option.map_map,
    Option.map_map]
  rfl

theorem outcome_quotedBody_plain (h : c ≠ quote) (h' : c ≠ '\\') :
    (quotedBody quote).outcome (c :: cs) =
      ((quotedBody quote).outcome cs).map fun (body, rest) => (c :: body, rest) := by
  rw [Reader.outcome, Reader.outcome, quotedBody.eq_def]
  dsimp only
  rw [if_neg h, if_neg h', Option.map_map, Option.map_map]
  rfl

/-- A closing quote ends the text, whatever stands behind it. -/
theorem outcome_quotedBody_append {body : List Char} (more : List Char)
    (h : (quotedBody quote).outcome cs = some (body, rest)) :
    (quotedBody quote).outcome (cs ++ more) = some (body, rest ++ more) := by
  fun_induction quotedBody quote cs generalizing body rest with
  | case1 => cases h
  | case2 cs =>
    rw [outcome_quotedBody_quote] at h
    cases h
    exact outcome_quotedBody_quote
  | case3 hquote =>
    rw [Reader.outcome, quotedBody, if_neg hquote, if_pos rfl] at h
    cases h
  | case4 d cs hquote ih =>
    rw [outcome_quotedBody_escape hquote] at h
    obtain ⟨⟨b, r⟩, hbody, h⟩ := Option.map_eq_some_iff.mp h
    cases h
    rw [List.cons_append, List.cons_append, outcome_quotedBody_escape hquote, ih hbody]
    rfl
  | case5 d cs hquote hbackslash ih =>
    rw [outcome_quotedBody_plain hquote hbackslash] at h
    obtain ⟨⟨b, r⟩, hbody, h⟩ := Option.map_eq_some_iff.mp h
    cases h
    rw [List.cons_append, outcome_quotedBody_plain hquote hbackslash, ih hbody]
    rfl

theorem outcome_read_word (hc : startsName c = true) : read.outcome (c :: cs) =
    some (word (String.ofList (c :: cs.takeWhile isNameChar)), cs.dropWhile isNameChar) := by
  rw [Reader.outcome, read, if_pos hc]
  rfl

theorem outcome_read_numeral (hc : startsName c = false) (hdigit : c.isDigit = true) :
    read.outcome (c :: cs) =
      some (numeral (String.ofList ((c :: cs).take (Text.numeralLength (c :: cs)))),
        cs.drop (Text.numeralLength (c :: cs) - 1)) := by
  rw [Reader.outcome, read, if_neg (by simp [hc]), if_pos hdigit]
  rfl

theorem outcome_read_quoted (hc : c = '\'' ∨ c = '"') : read.outcome (c :: cs) =
    ((quotedBody c).outcome cs).map fun (body, rest) => (quoted c (String.ofList body), rest) := by
  have hfirst : startsName c = false ∧ c.isDigit = false := by
    rcases hc with rfl | rfl <;> decide
  rw [Reader.outcome, Reader.outcome, read, if_neg (by simp [hfirst.1]),
    if_neg (by simp [hfirst.2]), if_pos hc, Option.map_map, Option.map_map]
  rfl

theorem outcome_read_mark (hc : startsName c = false) (hdigit : c.isDigit = false)
    (hquote : ¬ (c = '\'' ∨ c = '"')) : read.outcome (c :: cs) =
      (marks.find? fun m => m.toList.isPrefixOf (c :: cs)).map fun m =>
        (mark m, cs.drop (m.length - 1)) := by
  rw [Reader.outcome, read, if_neg (by simp [hc]), if_neg (by simp [hdigit]), if_neg hquote,
    Option.map_map]
  rfl

end

/-! ## In front of a line break -/

section

variable {stop : Char} (hstop : endsLine stop = true)

include hstop

theorem find?_marks_append_lineEnd (cs rest : List Char) :
    (marks.find? fun m => m.toList.isPrefixOf (cs ++ stop :: rest)) =
      marks.find? fun m => m.toList.isPrefixOf cs := by
  have hmarks : ∀ m ∈ marks, '\r' ∉ m.toList ∧ '\n' ∉ m.toList := by decide
  refine List.find?_congr fun m hm => ?_
  have hnotin : stop ∉ m.toList := by
    rcases eq_of_endsLine hstop with rfl | rfl
    · exact (hmarks m hm).1
    · exact (hmarks m hm).2
  rw [Bool.eq_iff_iff, List.isPrefixOf_iff_prefix, List.isPrefixOf_iff_prefix,
    prefix_append_cons_iff hnotin]

/-- A token in front of a line break ends where it ends without one. -/
theorem outcome_read_append_lineEnd {cs rest : List Char} {x : Token} (more : List Char)
    (h : read.outcome cs = some (x, rest)) :
    read.outcome (cs ++ stop :: more) = some (x, rest ++ stop :: more) := by
  cases cs with
  | nil => cases h
  | cons c cs =>
    -- The first character tells which sort of token it is, also in front of the line break.
    rw [List.cons_append]
    by_cases hc : startsName c = true
    · have hstopped : isNameChar stop = false := isNameChar_of_isBlank (isBlank_of_endsLine hstop)
      obtain ⟨htake, hdrop⟩ := takeWhile_append_stop hstopped cs more
      rw [outcome_read_word hc] at h ⊢
      cases h
      rw [htake, hdrop]
    rw [Bool.not_eq_true] at hc
    by_cases hdigit : c.isDigit = true
    · have hlength := Text.numeralLength_append_lineEnd (eq_of_endsLine hstop) (c :: cs) more
      have hle := Text.numeralLength_le (c :: cs)
      have htake : (c :: cs ++ stop :: more).take (Text.numeralLength (c :: cs)) =
          (c :: cs).take (Text.numeralLength (c :: cs)) := List.take_append_of_le_length hle
      rw [List.length_cons] at hle
      rw [List.cons_append] at hlength htake
      rw [outcome_read_numeral hc hdigit] at h ⊢
      cases h
      rw [hlength, htake, List.drop_append_of_le_length (by omega)]
    rw [Bool.not_eq_true] at hdigit
    by_cases hquote : c = '\'' ∨ c = '"'
    · rw [outcome_read_quoted hquote] at h ⊢
      obtain ⟨⟨body, last⟩, hbody, h⟩ := Option.map_eq_some_iff.mp h
      cases h
      rw [outcome_quotedBody_append (stop :: more) hbody]
      rfl
    · rw [outcome_read_mark hc hdigit hquote] at h ⊢
      obtain ⟨m, hm, h⟩ := Option.map_eq_some_iff.mp h
      cases h
      have hmark := find?_marks_append_lineEnd hstop (c :: cs) more
      have hprefix := List.find?_some (p := fun m : String => m.toList.isPrefixOf (c :: cs)) hm
      have hle := (List.isPrefixOf_iff_prefix.mp hprefix).length_le
      rw [String.length_toList, List.length_cons] at hle
      rw [List.cons_append] at hmark
      rw [hmark, hm, Option.map_some, List.drop_append_of_le_length (by omega)]

end

theorem afterComment?_append_of_eq_some {cs rest : List Char} {hlt : rest.length < cs.length}
    (h : afterComment? cs = some ⟨rest, hlt⟩) (more : List Char) :
    ∃ hlt', afterComment? (cs ++ more) = some ⟨rest ++ more, hlt'⟩ := by
  fun_induction afterComment? cs generalizing rest with
  | case1 => cases h
  | case2 cs =>
    cases h
    exact ⟨Nat.lt_succ_of_lt (Nat.lt_succ_self _), rfl⟩
  | case3 c cs hopen ih =>
    obtain ⟨⟨r, hr⟩, hafter, h⟩ := Option.map_eq_some_iff.mp h
    cases h
    obtain ⟨hlt', ih⟩ := ih hafter
    rw [List.cons_append]
    refine ⟨hlt'.trans (Nat.lt_succ_self _), ?_⟩
    rw [afterComment?]
    · rw [ih]
      rfl
    · rintro ds rfl hds
      cases cs with
      | nil => cases hafter
      | cons d cs =>
        cases hds
        exact hopen _ rfl rfl

/-- The tokens of a text in front of a line break. -/
theorem all?_append_lineEnd {stop : Char} (hstop : endsLine stop = true) {cs : List Char}
    {xs : List Token} (h : all? cs = some xs) (rest : List Char) :
    all? (cs ++ stop :: rest) = (all? rest).map (xs ++ ·) := by
  have hblank := isBlank_of_endsLine hstop
  fun_induction all? cs generalizing xs with
  | case1 =>
    cases h
    rw [List.nil_append, all?_blank hblank]
    simp
  | case2 => cases h
  | case3 cs last hlt hafter ih =>
    obtain ⟨hlt', hafter⟩ := afterComment?_append_of_eq_some hafter (stop :: rest)
    rw [List.cons_append, List.cons_append, all?_block hafter, ih h]
  | case4 cs ih =>
    have hstopped : (!endsLine stop) = false := by simp [hstop]
    have hdrop := (takeWhile_append_stop (p := fun c => !endsLine c) hstopped cs rest).2
    rw [List.cons_append, List.cons_append, all?_line, hdrop, ih h]
  | case5 c cs hblock hline hc ih => rw [List.cons_append, all?_blank hc, ih h]
  | case6 => cases h
  | case7 c cs hblock hline hc token last hlt hread ih =>
    obtain ⟨ys, hys, rfl⟩ := Option.map_eq_some_iff.mp h
    have hreads := Reader.outcome_eq_some_iff.mp (outcome_read_append_lineEnd hstop rest
      (Reader.outcome_eq_some_iff.mpr ⟨hlt, hread⟩))
    rw [List.cons_append] at hreads ⊢
    rw [all?_cons hreads (by simpa using hc), ih hys, Option.map_map]
    · rfl
    · -- Behind a slash at the end stands the line break, which opens no comment.
      rintro d ds rfl hds
      cases cs with
      | nil =>
        cases hds
        rcases eq_of_endsLine hstop with rfl | rfl <;> decide
      | cons d cs =>
        cases hds
        simp only [List.mem_cons, List.not_mem_nil, or_false]
        rintro (rfl | rfl)
        · exact hline _ rfl rfl
        · exact hblock _ rfl rfl

end Closure.Token

end QueryCompiler
