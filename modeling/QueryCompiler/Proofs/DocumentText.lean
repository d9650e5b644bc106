import QueryCompiler.Json.Token
import QueryCompiler.Json.Writer
import QueryCompiler.Proofs.FloatText
import QueryCompiler.Proofs.Readers
import QueryCompiler.Text.Joined

/-!
# Documents and their texts

Two documents with one compact text are one document (`Json.compact_injective`), as long as no float
in them is written as null. Wherever the text of a document begins, it says which document it is and
where it ends (`Json.Unambiguous`): strings and brackets end with marks of their own, and no number
is followed by what could belong to it.
-/

namespace QueryCompiler

open Grammar

/-- No number goes on here. -/
def EndsNumeral (rest : List Char) : Prop :=
  ∀ c, rest.head? = some c → isNumeralChar c = false

/-- Of texts of numerals with something behind them that does not go on, it can be said where they
end. -/
theorem numeral_append_inj {ds ds' rest rest' : List Char}
    (hds : ∀ c ∈ ds, isNumeralChar c = true) (hds' : ∀ c ∈ ds', isNumeralChar c = true)
    (hrest : EndsNumeral rest) (hrest' : EndsNumeral rest') (h : ds ++ rest = ds' ++ rest') :
    ds = ds' ∧ rest = rest' := by
  obtain ⟨htake, hdrop⟩ := Grammar.takeWhile_append hds hrest
  obtain ⟨htake', hdrop'⟩ := Grammar.takeWhile_append hds' hrest'
  exact ⟨by rw [← htake, h, htake'], by rw [← hdrop, h, hdrop']⟩

namespace FloatLayout

variable {layout : FloatLayout}

/-- Where whole numbers have a point as well, every float has a point or an exponent. -/
theorem exists_mark_write (hlayout : layout.pointZero = true) (x : Float) :
    ∃ c ∈ (layout.write x).toList, c.isDigit = false ∧ c ≠ '-' := by
  have hpositionally : ∀ digits exponent, '.' ∈ layout.positionally digits exponent := by
    intro digits exponent
    unfold positionally
    dsimp only
    split_ifs <;> simp
  have hscientifically : ∀ digits leading, 'e' ∈ layout.scientifically digits leading := by
    intro digits leading
    simp [scientifically]
  have hmagnitude : ∃ c ∈ (if (floatMagnitude x).mantissa = 0 then
      '0' :: (if layout.pointZero then ['.', '0'] else []) else layout.positive (floatMagnitude x)),
      c.isDigit = false ∧ c ≠ '-' := by
    split
    · exact ⟨'.', by simp, by decide, by decide⟩
    · unfold positive
      dsimp only
      split_ifs
      all_goals first
        | exact ⟨'.', hpositionally _ _, by decide, by decide⟩
        | exact ⟨'e', hscientifically _ _, by decide, by decide⟩
  obtain ⟨c, hc, hmark⟩ := hmagnitude
  refine ⟨c, ?_, hmark⟩
  rw [write, String.toList_ofList]
  cases floatIsNegative x with
  | true => exact List.mem_cons_of_mem _ hc
  | false => exact hc

end FloatLayout

theorem isDigit_or_of_mem_toString {n : ℤ} {c : Char} (h : c ∈ (toString n).toList) :
    c.isDigit = true ∨ c = '-' := by
  rcases n with n | n
  · rw [Int.ofNat_eq_natCast, toList_toString_ofNat] at h
    exact .inl (Nat.isDigit_of_mem_toDigits (by decide) (by decide) h)
  · rw [toList_toString_negSucc, List.mem_cons] at h
    rcases h with rfl | h
    · exact .inr rfl
    · exact .inl (Nat.isDigit_of_mem_toDigits (by decide) (by decide) h)

theorem toString_int_injective : Function.Injective (toString : ℤ → String) := by
  have hdigits : ∀ {m n : ℕ}, Nat.toDigits 10 m = Nat.toDigits 10 n → m = n := by
    intro m n h
    rw [← FloatLayout.digitsValue_toDigits m, h, FloatLayout.digitsValue_toDigits]
  have hsign : ∀ m n : ℕ, Nat.toDigits 10 m ≠ '-' :: Nat.toDigits 10 n := by
    intro m n h
    have hmem : '-' ∈ Nat.toDigits 10 m := by
      rw [h]
      exact List.mem_cons_self
    exact absurd (FloatLayout.isDigit_of_mem_toDigits '-' hmem) (by decide)
  intro m n h
  have hlist := congrArg String.toList h
  rcases m with m | m <;> rcases n with n | n
  · rw [Int.ofNat_eq_natCast, Int.ofNat_eq_natCast, toList_toString_ofNat,
      toList_toString_ofNat] at hlist
    rw [hdigits hlist]
  · rw [Int.ofNat_eq_natCast, toList_toString_ofNat, toList_toString_negSucc] at hlist
    exact absurd hlist (hsign _ _)
  · rw [Int.ofNat_eq_natCast, toList_toString_ofNat, toList_toString_negSucc] at hlist
    exact absurd hlist.symm (hsign _ _)
  · rw [toList_toString_negSucc, toList_toString_negSucc, List.cons.injEq] at hlist
    obtain rfl : m = n := Nat.succ_injective (hdigits hlist.2)
    rfl

namespace Json

/-! ## Strings -/

theorem hexValue?_paddedHex : ∀ n < 32, ∃ a b c d, (Text.paddedHex 4 n).toList = [a, b, c, d] ∧
    Token.hexValue? [a, b, c, d] = some n := by
  intro n hn
  interval_cases n <;> exact ⟨_, _, _, _, rfl, rfl⟩

/-- What is written for a character is read as it. -/
theorem reads_escapeChar (c : Char) {cs rest : List Char} {units : List ℕ}
    (h : Reads Token.stringUnits cs units rest) :
    Reads Token.stringUnits (escapeChar c ++ cs) (c.toNat :: units) rest := by
  obtain ⟨hlt, h⟩ := h
  unfold escapeChar
  split_ifs with hquote hbackslash hb hf hn hr ht hcontrol
  · subst hquote
    exact ⟨by simp; omega, by simp [Token.stringUnits, Token.escaped?, h]; rfl⟩
  · subst hbackslash
    exact ⟨by simp; omega, by simp [Token.stringUnits, Token.escaped?, h]; rfl⟩
  · subst hb
    exact ⟨by simp; omega, by simp [Token.stringUnits, Token.escaped?, h]; rfl⟩
  · subst hf
    exact ⟨by simp; omega, by simp [Token.stringUnits, Token.escaped?, h]; rfl⟩
  · subst hn
    exact ⟨by simp; omega, by simp [Token.stringUnits, Token.escaped?, h]; rfl⟩
  · subst hr
    exact ⟨by simp; omega, by simp [Token.stringUnits, Token.escaped?, h]; rfl⟩
  · subst ht
    exact ⟨by simp; omega, by simp [Token.stringUnits, Token.escaped?, h]; rfl⟩
  · obtain ⟨a, b, c', d, hhex, hvalue⟩ := hexValue?_paddedHex c.toNat hcontrol
    rw [hhex]
    exact ⟨by simp; omega, by simp [Token.stringUnits, hvalue, h]; rfl⟩
  · have hplain : Token.stringUnits (c :: cs) = if c.toNat < 0x20 then none else
        (Token.stringUnits cs).map fun read => (c.toNat :: read.1, read.2.later) := by
      rw [Token.stringUnits] <;> simp [hquote, hbackslash]
    exact ⟨hlt.trans (Nat.lt_succ_self _), hplain.trans (by rw [if_neg hcontrol, h]; rfl)⟩

/-- What is written between quotes is read back, up to the closing quote. -/
theorem reads_escaped (rest : List Char) : ∀ cs : List Char,
    Reads Token.stringUnits (cs.flatMap escapeChar ++ '"' :: rest) (cs.map Char.toNat) rest
  | [] => ⟨Nat.lt_succ_self _, rfl⟩
  | c :: cs => by
    rw [List.flatMap_cons, List.append_assoc, List.map_cons]
    exact reads_escapeChar c (reads_escaped rest cs)

theorem quote_append_inj {s s' : String} {rest rest' : List Char}
    (h : (quote s).toList ++ rest = (quote s').toList ++ rest') : s = s' ∧ rest = rest' := by
  obtain ⟨_, hs⟩ := reads_escaped rest s.toList
  obtain ⟨_, hs'⟩ := reads_escaped rest' s'.toList
  have htext : s.toList.flatMap escapeChar ++ '"' :: rest
      = s'.toList.flatMap escapeChar ++ '"' :: rest' := by
    simpa [quote] using h
  have hread := congrArg (fun cs => (Token.stringUnits cs).map fun r => (r.1, r.2.1)) htext
  simp only [hs, hs', Option.map_some, Option.some.injEq, Prod.mk.injEq] at hread
  refine ⟨String.toList_inj.mp ?_, hread.2⟩
  exact List.map_injective_iff.mpr (fun c d => Char.toNat_inj.mp) hread.1

/-! ## Lists between brackets -/

section Lists

variable {α : Type} {P : α → Prop} {w : α → String}

/-- Where the text of `x` begins, it says that it is that of `x`, and where it ends. -/
def Unambiguous (P : α → Prop) (w : α → String) (x : α) : Prop :=
  ∀ y rest rest', P y → EndsNumeral rest → EndsNumeral rest' →
    (w x).toList ++ rest = (w y).toList ++ rest' → x = y ∧ rest = rest'

/-- What stands behind the first item of a list. -/
def behindFirst (w : α → String) (close : Char) (xs : List α) (rest : List Char) : List Char :=
  if xs = [] then close :: rest
  else ',' :: ((Text.joined "," (xs.map w)).toList ++ close :: rest)

theorem joined_cons_append (close : Char) (x : α) (xs : List α) (rest : List Char) :
    (Text.joined "," ((x :: xs).map w)).toList ++ close :: rest
      = (w x).toList ++ behindFirst w close xs rest := by
  cases xs with
  | nil => rfl
  | cons y ys => simp [behindFirst, Text.joined_cons_cons]

variable {close : Char}

theorem endsNumeral_behindFirst (hclose : isNumeralChar close = false) (xs : List α)
    (rest : List Char) : EndsNumeral (behindFirst w close xs rest) := by
  intro c hc
  unfold behindFirst at hc
  split_ifs at hc
  · obtain rfl := Option.some.inj hc
    exact hclose
  · obtain rfl := Option.some.inj hc
    rfl

/-- A list of such items, with commas between them, says where it ends. -/
theorem joined_append_inj (hclose : isNumeralChar close = false) (hcomma : close ≠ ',')
    (hhead : ∀ y, P y → (w y).toList.head? ≠ some close) (hne : ∀ y, P y → (w y).toList ≠ []) :
    ∀ {xs ys : List α} {rest rest' : List Char}, (∀ x ∈ xs, P x ∧ Unambiguous P w x) →
      (∀ y ∈ ys, P y) → (Text.joined "," (xs.map w)).toList ++ close :: rest
        = (Text.joined "," (ys.map w)).toList ++ close :: rest' → xs = ys ∧ rest = rest'
  | [], [], _, _, _, _, h => ⟨rfl, (List.cons.inj h).2⟩
  | [], y :: ys, rest, rest', _, hys, h => by
    have hy := hys y List.mem_cons_self
    rw [joined_cons_append] at h
    have hfirst := congrArg List.head? h
    rw [List.head?_append_of_ne_nil _ (hne y hy)] at hfirst
    exact absurd hfirst.symm (hhead y hy)
  | x :: xs, [], rest, rest', hxs, _, h => by
    have hx := (hxs x List.mem_cons_self).1
    rw [joined_cons_append] at h
    have hfirst := congrArg List.head? h
    rw [List.head?_append_of_ne_nil _ (hne x hx)] at hfirst
    exact absurd hfirst (hhead x hx)
  | x :: xs, y :: ys, rest, rest', hxs, hys, h => by
    rw [joined_cons_append, joined_cons_append] at h
    obtain ⟨rfl, hbehind⟩ := (hxs x List.mem_cons_self).2 y _ _ (hys y List.mem_cons_self)
      (endsNumeral_behindFirst hclose xs rest) (endsNumeral_behindFirst hclose ys rest') h
    have hxs' := fun z hz => hxs z (List.mem_cons_of_mem x hz)
    have hys' := fun z hz => hys z (List.mem_cons_of_mem x hz)
    unfold behindFirst at hbehind
    split_ifs at hbehind with hnil hnil' hnil'
    · exact ⟨by rw [hnil, hnil'], (List.cons.inj hbehind).2⟩
    · exact absurd (List.cons.inj hbehind).1 hcomma
    · exact absurd (List.cons.inj hbehind).1.symm hcomma
    · obtain ⟨rfl, hrest⟩ :=
        joined_append_inj hclose hcomma hhead hne hxs' hys' (List.cons.inj hbehind).2
      exact ⟨rfl, hrest⟩

end Lists

/-! ## Documents -/

mutual

/-- Every float of the document is a number, and is not written as null. -/
def HasNumbers : Json → Prop
  | .float x => x.isFinite = true
  | .array items => AllHaveNumbers items
  | .object members => MembersHaveNumbers members
  | _ => True

def AllHaveNumbers : List Json → Prop
  | [] => True
  | item :: rest => item.HasNumbers ∧ AllHaveNumbers rest

def MembersHaveNumbers : List (String × Json) → Prop
  | [] => True
  | (_, value) :: rest => value.HasNumbers ∧ MembersHaveNumbers rest

end

theorem allHaveNumbers_iff : ∀ {items : List Json}, AllHaveNumbers items ↔
    ∀ item ∈ items, item.HasNumbers
  | [] => iff_of_true trivial (List.forall_mem_nil _)
  | _ :: _ => by rw [AllHaveNumbers, List.forall_mem_cons, allHaveNumbers_iff]

theorem membersHaveNumbers_iff : ∀ {members : List (String × Json)}, MembersHaveNumbers members ↔
    ∀ member ∈ members, member.2.HasNumbers
  | [] => iff_of_true trivial (List.forall_mem_nil _)
  | (_, _) :: _ => by rw [MembersHaveNumbers, List.forall_mem_cons, membersHaveNumbers_iff]

/-- The text of a member. -/
def compactMember (member : String × Json) : String :=
  quote member.1 ++ ":" ++ compact member.2

theorem compactItems_eq_joined : ∀ items : List Json,
    compactItems items = Text.joined "," (items.map compact)
  | [] => rfl
  | [_] => rfl
  | item :: next :: rest => by
    rw [compactItems, compactItems_eq_joined (next :: rest)]
    · rfl
    · rintro ⟨⟩

theorem compactMembers_eq_joined : ∀ members : List (String × Json),
    compactMembers members = Text.joined "," (members.map compactMember)
  | [] => rfl
  | [_] => rfl
  | (key, value) :: next :: rest => by
    rw [compactMembers, compactMembers_eq_joined (next :: rest)]
    · rfl
    · rintro ⟨⟩

/-- What the first character of a text says of its sort. -/
def sortOf (c : Char) : Char :=
  if isNumeralChar c then '0' else if c = 'f' then 't' else c

/-- The sort of a document, as the first character of its text says it. -/
def sort : Json → Char
  | .null => 'n'
  | .bool _ => 't'
  | .integer _ | .float _ => '0'
  | .string _ => '"'
  | .array _ => '['
  | .object _ => '\x7b'

theorem sortOf_of_numeral {cs : List Char} (hcs : ∀ c ∈ cs, isNumeralChar c = true)
    (hne : cs ≠ []) : ∃ c, cs.head? = some c ∧ sortOf c = '0' := by
  cases cs with
  | nil => exact absurd rfl hne
  | cons c cs => exact ⟨c, rfl, if_pos (hcs c List.mem_cons_self)⟩

theorem compact_float {x : Float} (h : x.isFinite = true) :
    compact (.float x) = floatLayout.write x := by
  rw [compact, floatText, if_pos h]

theorem head_compact {j : Json} (h : j.HasNumbers) :
    ∃ c, j.compact.toList.head? = some c ∧ sortOf c = j.sort := by
  cases j with
  | null => exact ⟨'n', rfl, rfl⟩
  | bool b =>
    cases b with
    | false => exact ⟨'f', rfl, rfl⟩
    | true => exact ⟨'t', rfl, rfl⟩
  | integer n =>
    exact sortOf_of_numeral (fun _ => isNumeralChar_of_mem_toString) (toList_toString_ne_nil n)
  | float x =>
    rw [compact_float h]
    exact sortOf_of_numeral (fun _ => floatLayout.isNumeralChar_of_mem_write)
      (floatLayout.toList_write_ne_nil x)
  | string s => exact ⟨'"', by simp [compact, quote], rfl⟩
  | array items => exact ⟨'[', by simp [compact], rfl⟩
  | object members => exact ⟨'\x7b', by simp [compact], rfl⟩

theorem compact_ne_nil {j : Json} (h : j.HasNumbers) : j.compact.toList ≠ [] := by
  obtain ⟨c, hc, -⟩ := head_compact h
  intro hnil
  rw [hnil] at hc
  cases hc

/-- No document begins with a closing bracket. -/
theorem head_compact_ne {j : Json} (h : j.HasNumbers) {close : Char}
    (hclose : ∀ j : Json, j.sort ≠ sortOf close) : j.compact.toList.head? ≠ some close := by
  intro hhead
  obtain ⟨c, hc, hsort⟩ := head_compact h
  rw [hhead] at hc
  cases hc
  exact hclose j hsort.symm

theorem sort_eq_of_append_eq {j j' : Json} (h : j.HasNumbers) (h' : j'.HasNumbers)
    {rest rest' : List Char} (heq : j.compact.toList ++ rest = j'.compact.toList ++ rest') :
    j.sort = j'.sort := by
  obtain ⟨c, hc, hsort⟩ := head_compact h
  obtain ⟨c', hc', hsort'⟩ := head_compact h'
  have hhead := congrArg List.head? heq
  rw [List.head?_append_of_ne_nil _ (compact_ne_nil h),
    List.head?_append_of_ne_nil _ (compact_ne_nil h'), hc, hc'] at hhead
  rw [← hsort, ← hsort', Option.some.inj hhead]

/-- A number. -/
theorem number_append_inj {j j' : Json} (h : j.HasNumbers) (h' : j'.HasNumbers)
    (hsort : j.sort = '0') (hsort' : j'.sort = '0') {rest rest' : List Char}
    (hrest : EndsNumeral rest) (hrest' : EndsNumeral rest')
    (heq : j.compact.toList ++ rest = j'.compact.toList ++ rest') : j = j' ∧ rest = rest' := by
  have hnumeral : ∀ {j : Json}, j.HasNumbers → j.sort = '0' →
      ∀ c ∈ j.compact.toList, isNumeralChar c = true := by
    intro j h hsort c hc
    cases j with
    | integer n => exact isNumeralChar_of_mem_toString hc
    | float x =>
      rw [compact_float h] at hc
      exact floatLayout.isNumeralChar_of_mem_write hc
    | _ => cases hsort
  have hmixed : ∀ (n : ℤ) (x : Float), x.isFinite = true →
      (compact (.integer n)).toList ≠ (compact (.float x)).toList := by
    intro n x hx heq
    obtain ⟨c, hc, hdigit, hminus⟩ := floatLayout.exists_mark_write rfl x
    rw [compact_float hx] at heq
    rw [← heq] at hc
    rcases isDigit_or_of_mem_toString hc with hc | hc
    · rw [hdigit] at hc
      cases hc
    · exact hminus hc
  obtain ⟨htext, hrests⟩ :=
    numeral_append_inj (hnumeral h hsort) (hnumeral h' hsort') hrest hrest' heq
  refine ⟨?_, hrests⟩
  cases j with
  | integer m =>
    cases j' with
    | integer n => rw [toString_int_injective (String.toList_inj.mp htext)]
    | float x => exact absurd htext (hmixed m x h')
    | _ => cases hsort'
  | float x =>
    cases j' with
    | integer n => exact absurd htext.symm (hmixed n x h)
    | float y =>
      rw [compact_float h, compact_float h'] at htext
      rw [floatLayout.write_injective (String.toList_inj.mp htext)]
    | _ => cases hsort'
  | _ => cases hsort

theorem unambiguous_compactMember {key : String} {value : Json}
    (h : Unambiguous HasNumbers compact value) :
    Unambiguous (fun member : String × Json => member.2.HasNumbers) compactMember (key, value) := by
  rintro ⟨key', value'⟩ rest rest' h' hrest hrest' heq
  simp only [compactMember, String.toList_append, List.append_assoc] at heq
  obtain ⟨rfl, htail⟩ := quote_append_inj heq
  obtain ⟨rfl, hrests⟩ := h value' rest rest' h' hrest hrest' (List.append_cancel_left htail)
  exact ⟨rfl, hrests⟩

mutual

/-- The text of a document says which document it is. -/
theorem unambiguous_compact : ∀ {j : Json}, j.HasNumbers → Unambiguous HasNumbers compact j
  | .null, h => by
    intro j' rest rest' h' _ _ heq
    have hsort := sort_eq_of_append_eq h h' heq
    cases j' <;> cases hsort
    exact ⟨rfl, List.append_cancel_left heq⟩
  | .bool b, h => by
    intro j' rest rest' h' _ _ heq
    have hsort := sort_eq_of_append_eq h h' heq
    cases j' <;> cases hsort
    rename_i b'
    cases b <;> cases b' <;> simp_all [compact]
  | .integer n, h => fun _ _ _ h' hrest hrest' heq =>
    number_append_inj h h' rfl (sort_eq_of_append_eq h h' heq).symm hrest hrest' heq
  | .float x, h => fun _ _ _ h' hrest hrest' heq =>
    number_append_inj h h' rfl (sort_eq_of_append_eq h h' heq).symm hrest hrest' heq
  | .string s, h => by
    intro j' rest rest' h' _ _ heq
    have hsort := sort_eq_of_append_eq h h' heq
    cases j' <;> cases hsort
    obtain ⟨rfl, hrests⟩ := quote_append_inj heq
    exact ⟨rfl, hrests⟩
  | .array items, h => by
    intro j' rest rest' h' _ _ heq
    have hsort := sort_eq_of_append_eq h h' heq
    cases j' <;> cases hsort
    rename_i items'
    have hlist : (Text.joined "," (items.map compact)).toList ++ ']' :: rest
        = (Text.joined "," (items'.map compact)).toList ++ ']' :: rest' := by
      simpa [compact, compactItems_eq_joined] using heq
    have hclose : ∀ j : Json, j.sort ≠ sortOf ']' := by
      intro j
      cases j <;> simp [sort, sortOf, isNumeralChar]
    obtain ⟨rfl, hrests⟩ := joined_append_inj rfl (by decide)
      (fun y hy => head_compact_ne hy hclose) (fun y hy => compact_ne_nil hy) (unambiguous_items h)
      (allHaveNumbers_iff.mp h') hlist
    exact ⟨rfl, hrests⟩
  | .object members, h => by
    intro j' rest rest' h' _ _ heq
    have hsort := sort_eq_of_append_eq h h' heq
    cases j' <;> cases hsort
    rename_i members'
    have hlist : (Text.joined "," (members.map compactMember)).toList ++ '\x7d' :: rest
        = (Text.joined "," (members'.map compactMember)).toList ++ '\x7d' :: rest' := by
      simpa [compact, compactMembers_eq_joined] using heq
    obtain ⟨rfl, hrests⟩ := joined_append_inj rfl (by decide)
      (fun y _ => by simp [compactMember, quote]) (fun y _ => by simp [compactMember, quote])
      (unambiguous_members h) (membersHaveNumbers_iff.mp h') hlist
    exact ⟨rfl, hrests⟩

theorem unambiguous_items : ∀ {items : List Json}, AllHaveNumbers items →
    ∀ item ∈ items, item.HasNumbers ∧ Unambiguous HasNumbers compact item
  | [], _ => List.forall_mem_nil _
  | _ :: _, h =>
    List.forall_mem_cons.mpr ⟨⟨h.1, unambiguous_compact h.1⟩, unambiguous_items h.2⟩

theorem unambiguous_members : ∀ {members : List (String × Json)}, MembersHaveNumbers members →
    ∀ member ∈ members, member.2.HasNumbers ∧
      Unambiguous (fun member => member.2.HasNumbers) compactMember member
  | [], _ => List.forall_mem_nil _
  | (_, _) :: _, h => List.forall_mem_cons.mpr
    ⟨⟨h.1, unambiguous_compactMember (unambiguous_compact h.1)⟩, unambiguous_members h.2⟩

end

/-- Documents with one text are one document. -/
theorem compact_injective {j j' : Json} (h : j.HasNumbers) (h' : j'.HasNumbers)
    (heq : j.compact = j'.compact) : j = j' := by
  have hend : EndsNumeral [] := by
    rintro c ⟨⟩
  exact (unambiguous_compact h j' [] [] h' hend hend (by rw [heq])).1

end Json

end QueryCompiler
