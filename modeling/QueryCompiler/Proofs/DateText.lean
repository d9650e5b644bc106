import Mathlib
import QueryCompiler.Calendar.Reading
import QueryCompiler.Calendar.Writing
import QueryCompiler.Proofs.Readers

/-!
# Reading a date back

A date in a document is read back cut off to whole milliseconds (`ofText?_documentText`). Each
number is written with as many digits as it is read with at most, and no number is followed by a
digit, so the numbers come off the text one by one in the first notation that is tried.
-/

namespace QueryCompiler

namespace Text

theorem digitsValue_eq_ofDigitChars (cs : List Char) :
    digitsValue cs = Nat.ofDigitChars 10 cs 0 := rfl

theorem toList_padded (width n : ℕ) :
    (padded width n).toList
      = List.replicate (width - (Nat.toDigits 10 n).length) '0' ++ Nat.toDigits 10 n := by
  simp [padded]

theorem digitsValue_padded (width n : ℕ) : digitsValue (padded width n).toList = n := by
  rw [toList_padded, digitsValue_eq_ofDigitChars, Nat.ofDigitChars_append,
    Nat.ofDigitChars_replicate_zero, Nat.mul_zero, Nat.ofDigitChars_ten_toDigits]

theorem isDigit_of_mem_padded {width n : ℕ} {c : Char} (h : c ∈ (padded width n).toList) :
    c.isDigit = true := by
  rw [toList_padded, List.mem_append] at h
  rcases h with h | h
  · rw [(List.mem_replicate.mp h).2]
    rfl
  · exact Nat.isDigit_of_mem_toDigits (by decide) (by decide) h

theorem padded_ne_nil (width n : ℕ) : (padded width n).toList ≠ [] := by
  rw [toList_padded]
  simp

theorem length_padded {width n : ℕ} (hw : 0 < width) (h : n < 10 ^ width) :
    (padded width n).toList.length = width := by
  have hlen : (Nat.toDigits 10 n).length ≤ width :=
    (Nat.length_toDigits_le_iff (by decide) hw).mpr h
  rw [toList_padded, List.length_append, List.length_replicate]
  omega

theorem spanDigits_append {ds rest : List Char} (hds : ∀ c ∈ ds, c.isDigit = true)
    (hrest : ∀ c, rest.head? = some c → c.isDigit = false) :
    spanDigits (ds ++ rest) = (ds, rest) := by
  obtain ⟨htake, hdrop⟩ := Grammar.takeWhile_append hds hrest
  rw [spanDigits, List.span_eq_takeWhile_dropWhile, htake, hdrop]

theorem isBlank_of_isDigit {c : Char} (h : c.isDigit = true) : isBlank c = false := by
  have hc : 48 ≤ c.toNat ∧ c.toNat ≤ 57 := by
    simpa [Char.isDigit, UInt32.le_iff_toNat_le] using h
  simp only [isBlank, blankRanges, List.any_cons, List.any_nil, Bool.or_false]
  simp only [Bool.or_eq_false_iff, Bool.and_eq_false_iff, decide_eq_false_iff_not, not_le]
  omega

theorem skipBlanks_of_head {cs : List Char} (h : ∀ c, cs.head? = some c → isBlank c = false) :
    skipBlanks cs = cs := by
  rcases cs with _ | ⟨c, cs⟩
  · rfl
  · simp [skipBlanks, h c rfl]

theorem skipBlanks_padded (width n : ℕ) (rest : List Char) :
    skipBlanks ((padded width n).toList ++ rest) = (padded width n).toList ++ rest := by
  refine skipBlanks_of_head fun c hc => ?_
  rw [List.head?_append_of_ne_nil _ (padded_ne_nil width n)] at hc
  exact isBlank_of_isDigit (isDigit_of_mem_padded (List.mem_of_mem_head? hc))

end Text

namespace DateTime

open Text

theorem takeNumber_append {width : Option ℕ} {ds rest : List Char}
    (hds : ∀ c ∈ ds, c.isDigit = true) (hne : ds ≠ [])
    (hwidth : ∀ w, width = some w → ds.length ≤ w)
    (hrest : ∀ c, rest.head? = some c → c.isDigit = false) :
    takeNumber width (ds ++ rest) = some (digitsValue ds, rest) := by
  rcases width with _ | w
  · simp [takeNumber, spanDigits_append hds hrest, hne]
  · have htake : ds.take w = ds := List.take_of_length_le (hwidth w rfl)
    simp [takeNumber, spanDigits_append hds hrest, htake, hne]

theorem takeNumber_padded {width : ℕ} {limit : Option ℕ} {n : ℕ} {rest : List Char}
    (hlimit : ∀ w, limit = some w → 0 < width ∧ n < 10 ^ width ∧ width ≤ w)
    (hrest : ∀ c, rest.head? = some c → c.isDigit = false) :
    takeNumber limit ((padded width n).toList ++ rest) = some (n, rest) := by
  have hwidth : ∀ w, limit = some w → (padded width n).toList.length ≤ w := fun w hw => by
    obtain ⟨hpos, hn, hle⟩ := hlimit w hw
    rwa [length_padded hpos hn]
  have h := takeNumber_append (fun c => isDigit_of_mem_padded) (padded_ne_nil width n) hwidth hrest
  rwa [digitsValue_padded] at h

theorem two_padded {n : ℕ} {c : Char} {rest : List Char} (hn : n < 100)
    (hc : c.isDigit = false) :
    readElement.two ((padded 2 n).toList ++ c :: rest) = some (n, c :: rest) := by
  rw [readElement.two, skipBlanks_padded]
  exact takeNumber_padded (by simpa using hn) (by simpa using hc)

theorem head_padded_append {width n : ℕ} {c : Char} {cs rest : List Char}
    (h : (padded width n).toList ++ rest = c :: cs) : c.isDigit = true := by
  have hhead : (padded width n).toList.head? = some c := by
    rw [← List.head?_append_of_ne_nil _ (padded_ne_nil width n), h, List.head?_cons]
  exact isDigit_of_mem_padded (List.mem_of_mem_head? hhead)

/-- A year in four digits begins with a digit, one with a sign is read to its last digit. -/
theorem takeYear_yearText (year : ℤ) (rest : List Char) :
    takeYear (skipBlanks ((yearText year).toList ++ '-' :: rest)) = some (year, '-' :: rest) := by
  have hdash : ∀ c, ('-' :: rest).head? = some c → c.isDigit = false := by simp
  have hsigned : takeNumber none ((padded 4 year.natAbs).toList ++ '-' :: rest)
      = some (year.natAbs, '-' :: rest) := takeNumber_padded (by simp) hdash
  have hblank : ∀ (c : Char) (cs : List Char), isBlank c = false → skipBlanks (c :: cs) = c :: cs :=
    fun c cs hc => skipBlanks_of_head (by simpa using hc)
  by_cases hy : 0 ≤ year ∧ year ≤ 9999
  · obtain ⟨n, rfl⟩ := Int.eq_ofNat_of_zero_le hy.1
    have hn : n < 10 ^ 4 := by omega
    have hplain : takeNumber (some 4) ((padded 4 n).toList ++ '-' :: rest)
        = some (n, '-' :: rest) := takeNumber_padded (by simpa using hn) hdash
    rw [yearText, if_pos hy, Int.toNat_natCast, skipBlanks_padded]
    unfold takeYear
    split
    · rename_i h
      exact absurd (head_padded_append h) (by decide)
    · rename_i h
      exact absurd (head_padded_append h) (by decide)
    · rw [hplain]
      rfl
  · rw [yearText, if_neg hy, String.toList_append]
    split_ifs with hneg
    · rw [show "-".toList = ['-'] by simp, List.append_assoc, List.singleton_append,
        hblank _ _ (by decide), takeYear, hsigned, Option.map_some]
      simp only [Option.some.injEq, Prod.mk.injEq, and_true]
      omega
    · rw [show "+".toList = ['+'] by simp, List.append_assoc, List.singleton_append,
        hblank _ _ (by decide), takeYear, hsigned, Option.map_some]
      simp only [Option.some.injEq, Prod.mk.injEq, and_true]
      omega

theorem takeFraction_millisecondText (t : DateTime) :
    takeFraction t.millisecondText.toList = some (t.truncated.nanosecond, []) := by
  have hms : t.nanosecond / 1000000 < 10 ^ 3 := by
    have := t.time_mem.2.2.2
    omega
  have hspan : spanDigits ((padded 3 (t.nanosecond / 1000000)).toList ++ [])
      = ((padded 3 (t.nanosecond / 1000000)).toList, []) :=
    spanDigits_append (fun c => isDigit_of_mem_padded) (by simp)
  have hlen := length_padded (by decide) hms
  rw [List.append_nil] at hspan
  rw [millisecondText, String.toList_append, show ".".toList = ['.'] by simp,
    List.singleton_append, takeFraction, hspan]
  simp only [padded_ne_nil, if_false, List.take_of_length_le (hlen.le.trans (by decide : 3 ≤ 9)),
    hlen, digitsValue_padded]
  rfl

theorem daysInMonth_le (year : ℤ) (month : ℕ) : daysInMonth year month ≤ 31 := by
  unfold daysInMonth
  split_ifs <;> decide

theorem month_lt (t : DateTime) : t.month < 100 := by
  by_contra h
  have hnone : daysInMonth t.year t.month = 0 := by
    unfold daysInMonth
    split_ifs <;> omega
  have := t.day_mem
  omega

/-- A date is read back from the text that a document has for it, cut off to milliseconds. -/
theorem ofText?_documentText (t : DateTime) : ofText? t.documentText = some t.truncated := by
  have hday : t.day < 100 := by
    have := t.day_mem.2
    have := daysInMonth_le t.year t.month
    omega
  obtain ⟨hhour, hminute, hsecond, -⟩ := t.time_mem
  have hdash : '-'.isDigit = false := by decide
  have hmark : 'T'.isDigit = false := by decide
  have hcolon : ':'.isDigit = false := by decide
  have hpoint : '.'.isDigit = false := by decide
  have hfraction := takeFraction_millisecondText t
  have htext : t.documentText.toList = (yearText t.year).toList ++ '-' :: ((padded 2 t.month).toList
      ++ '-' :: ((padded 2 t.day).toList ++ 'T' :: ((padded 2 t.hour).toList ++ ':' ::
        ((padded 2 t.minute).toList ++ ':' :: ((padded 2 t.second).toList
          ++ '.' :: (padded 3 (t.nanosecond / 1000000)).toList))))) := by
    simp [documentText, dateText, timeText, millisecondText]
  have hread : readNotation (dateElements ++ .exactly 'T' :: timeElements) t.documentText.toList
      = some t.truncated := by
    rw [millisecondText, String.toList_append, show ".".toList = ['.'] by simp,
      List.singleton_append] at hfraction
    rw [htext, readNotation]
    simp only [dateElements, timeElements, List.cons_append, List.nil_append, List.foldlM_cons,
      List.foldlM_nil, readElement, takeYear_yearText, two_padded t.month_lt hdash,
      two_padded hday hmark, two_padded (hhour.trans (by decide)) hcolon,
      two_padded (hminute.trans (by decide)) hcolon,
      two_padded (hsecond.trans_lt (by decide)) hpoint, hfraction, Option.map_some, Option.bind_eq_bind, Option.bind_some, if_true, Option.pure_def]
    exact of?_parts t.truncated
  rw [ofText?, notations, List.findSome?_cons, hread]

/-- A test on characters that digits and the marks between them pass. -/
theorem of_mem_documentText {p : Char → Prop} (hdigit : ∀ c, c.isDigit = true → p c)
    (hother : ∀ c ∈ ['-', '+', ':', '.', 'T'], p c) (t : DateTime) :
    ∀ c ∈ t.documentText.toList, p c := by
  have hnumber : ∀ width n, ∀ c ∈ (padded width n).toList, p c := fun _ _ c hc =>
    hdigit c (isDigit_of_mem_padded hc)
  have hmark : ∀ c ∈ ['-', '+', ':', '.', 'T'], ∀ d ∈ [c], p d := fun c hc d hd =>
    hother d (List.mem_singleton.mp hd ▸ hc)
  have hdash : ∀ c ∈ "-".toList, p c := hmark '-' (by simp)
  have hplus : ∀ c ∈ "+".toList, p c := hmark '+' (by simp)
  have hcolon : ∀ c ∈ ":".toList, p c := hmark ':' (by simp)
  have hpoint : ∀ c ∈ ".".toList, p c := hmark '.' (by simp)
  have hbetween : ∀ c ∈ "T".toList, p c := hmark 'T' (by simp)
  have hyear : ∀ c ∈ (yearText t.year).toList, p c := by
    unfold yearText
    split_ifs
    · exact hnumber _ _
    · rw [String.toList_append]
      exact List.forall_mem_append.mpr ⟨hdash, hnumber _ _⟩
    · rw [String.toList_append]
      exact List.forall_mem_append.mpr ⟨hplus, hnumber _ _⟩
  simp only [documentText, dateText, timeText, millisecondText, String.toList_append,
    List.forall_mem_append]
  exact ⟨⟨⟨⟨⟨⟨⟨hyear, hdash⟩, hnumber _ _⟩, hdash⟩, hnumber _ _⟩, hbetween⟩,
    ⟨⟨⟨hnumber _ _, hcolon⟩, hnumber _ _⟩, hcolon⟩, hnumber _ _⟩, hpoint, hnumber _ _⟩

end DateTime

end QueryCompiler
