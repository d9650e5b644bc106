import QueryCompiler.Proofs.DateText
import QueryCompiler.Proofs.LikeQueries

/-!
# Literals between quotes

What stands between the quotes of a literal is a body (`IsBody`): no quote in it stands without a
backslash in front of it, and the last backslash is not left alone. Numbers and dates have no quotes
and no backslashes at all. So any text may take the place of any other in a literal, as long as
neither or both are empty (`standard_replaces`).
-/

namespace QueryCompiler

/-- The characters may stand between quotes: a quote or a backslash among them is escaped. -/
inductive IsBody : List Char → Prop
  | nil : IsBody []
  | char {c : Char} {cs : List Char} (hquote : c ≠ '\'') (hescape : c ≠ '\\') (h : IsBody cs) :
      IsBody (c :: cs)
  | escaped (c : Char) {cs : List Char} (h : IsBody cs) : IsBody ('\\' :: c :: cs)

/-- A character is escaped, or it is neither a quote nor a backslash and stays as it is. -/
theorem Dialect.escapeChar_cases (c : Char) :
    (∃ d, escapeChar c = ['\\', d]) ∨ c ≠ '\'' ∧ c ≠ '\\' ∧ escapeChar c = [c] := by
  by_cases hquote : c = '\''
  · subst hquote
    exact .inl ⟨_, rfl⟩
  · by_cases hescape : c = '\\'
    · subst hescape
      exact .inl ⟨_, rfl⟩
    · unfold escapeChar
      rw [if_neg hquote, if_neg hescape]
      repeat' split
      all_goals first
        | exact .inl ⟨_, rfl⟩
        | exact .inr ⟨hquote, hescape, rfl⟩

namespace IsBody

theorem append {cs ds : List Char} (hc : IsBody cs) (hd : IsBody ds) : IsBody (cs ++ ds) := by
  induction hc with
  | nil => exact hd
  | char hquote hescape _ ih => exact ih.char hquote hescape
  | escaped c _ ih => exact ih.escaped c

theorem of_neutral : ∀ {cs : List Char}, (∀ c ∈ cs, isNeutral c = true) → IsBody cs
  | [], _ => nil
  | c :: _, h => by
    obtain ⟨hc, hcs⟩ := List.forall_mem_cons.mp h
    refine char ?_ ?_ (of_neutral hcs)
    · rintro rfl
      cases hc
    · rintro rfl
      cases hc

theorem escapeChar (c : Char) : IsBody (Dialect.escapeChar c) := by
  rcases Dialect.escapeChar_cases c with ⟨d, hd⟩ | ⟨hquote, hescape, hself⟩
  · rw [hd]
    exact nil.escaped d
  · rw [hself]
    exact nil.char hquote hescape

theorem flatMap_escapeChar : ∀ cs : List Char, IsBody (cs.flatMap Dialect.escapeChar)
  | [] => nil
  | c :: cs => by
    rw [List.flatMap_cons]
    exact (escapeChar c).append (flatMap_escapeChar cs)

end IsBody

/-- Where a scan of a statement stands: outside of literals, inside of one, or there behind a
backslash. -/
inductive ScanMode
  | outside
  | inside
  | escaped
deriving DecidableEq

/-- Where the scan stands behind the character. A backslash protects the character behind it. -/
def ScanMode.next : ScanMode → Char → ScanMode
  | .outside, c => if c = '\'' then .inside else .outside
  | .inside, c => if c = '\\' then .escaped else if c = '\'' then .outside else .inside
  | .escaped, _ => .inside

theorem Dialect.escapeChar_ne_nil (c : Char) : escapeChar c ≠ [] := by
  rcases escapeChar_cases c with ⟨d, hd⟩ | ⟨-, -, hself⟩
  · rw [hd]
    exact List.cons_ne_nil _ _
  · rw [hself]
    exact List.cons_ne_nil _ _

theorem Dialect.flatMap_escapeChar_eq_nil {cs : List Char} :
    cs.flatMap escapeChar = [] ↔ cs = [] := by
  rw [List.flatMap_eq_nil_iff]
  refine ⟨fun h => List.eq_nil_iff_forall_not_mem.mpr fun c hc => escapeChar_ne_nil c (h c hc), ?_⟩
  rintro rfl c hc
  cases hc

/-- Any two bodies are alike, unless only one of them is empty. -/
def Likeness.quoting (plain : Char → Prop) (hplain : ∀ c, isNeutral c = true → plain c) :
    Likeness where
  plain := plain
  body b b' := IsBody b ∧ IsBody b' ∧ (b = [] ↔ b' = [])
  plain_of_neutral := hplain
  body_of_neutral _ h := ⟨.of_neutral h, .of_neutral h, Iff.rfl⟩
  body_append := fun ⟨hs, hs', hempty⟩ ⟨ht, ht', hempty'⟩ =>
    ⟨hs.append ht, hs'.append ht', by rw [List.append_eq_nil_iff, List.append_eq_nil_iff, hempty,
      hempty']⟩
  body_eq_nil h := h.2.2

/-! ## Numbers and dates -/

namespace DateTime

theorem isNeutral_padded (width n : ℕ) : ∀ c ∈ (Text.padded width n).toList, isNeutral c = true :=
  fun _ hc => isNeutral_of_isNumeralChar (isNumeralChar_of_isDigit (Text.isDigit_of_mem_padded hc))

theorem isNeutral_yearText (year : ℤ) : ∀ c ∈ (yearText year).toList, isNeutral c = true := by
  unfold yearText
  split_ifs
  · exact isNeutral_padded _ _
  · rw [String.toList_append]
    exact List.forall_mem_append.mpr ⟨List.forall_mem_singleton.mpr rfl, isNeutral_padded _ _⟩
  · rw [String.toList_append]
    exact List.forall_mem_append.mpr ⟨List.forall_mem_singleton.mpr rfl, isNeutral_padded _ _⟩

theorem isNeutral_statementText (t : DateTime) :
    ∀ c ∈ t.statementText.toList, isNeutral c = true := by
  simp only [statementText, dateText, timeText, millisecondText, String.toList_append,
    List.forall_mem_append]
  have hnumber := isNeutral_padded
  have hdash : ∀ c ∈ "-".toList, isNeutral c = true := List.forall_mem_singleton.mpr rfl
  have hcolon : ∀ c ∈ ":".toList, isNeutral c = true := List.forall_mem_singleton.mpr rfl
  have hblank : ∀ c ∈ " ".toList, isNeutral c = true := List.forall_mem_singleton.mpr rfl
  have hpoint : ∀ c ∈ ".".toList, isNeutral c = true := List.forall_mem_singleton.mpr rfl
  exact ⟨⟨⟨⟨⟨⟨⟨isNeutral_yearText _, hdash⟩, hnumber _ _⟩, hdash⟩, hnumber _ _⟩, hblank⟩,
    ⟨⟨⟨hnumber _ _, hcolon⟩, hnumber _ _⟩, hcolon⟩, hnumber _ _⟩, hpoint, hnumber _ _⟩

end DateTime

/-! ## Texts in place of texts -/

/-- A text is replaced by another one, and any other literal is left as it is. -/
def Value.mapText (s : String → String) : Value → Value
  | .string text => .string (s text)
  | v => v

namespace Likeness

variable (plain : Char → Prop) (hplain : ∀ c, isNeutral c = true → plain c)

theorem LikeArgument.neutral {L : Likeness} {sql : String} (integer : Option Int64)
    (h : ∀ c ∈ sql.toList, isNeutral c = true) :
    L.LikeArgument { Argument.scalar sql with integer } { Argument.scalar sql with integer } :=
  ⟨Like.of_neutral h, .some (L.body_of_neutral _ h), rfl, rfl⟩

theorem LikeArgument.quoted {L : Likeness} {b b' : List Char} (h : L.body b b') :
    L.LikeArgument (.quoted (String.ofList ('\'' :: b ++ ['\''])))
      (.quoted (String.ofList ('\'' :: b' ++ ['\'']))) := by
  refine ⟨Like.literal h, ?_, rfl, rfl⟩
  rw [Argument.quoted, Argument.quoted, Argument.quotedBody?_quote, Argument.quotedBody?_quote]
  refine .some ?_
  rw [String.toList_ofList, String.toList_ofList]
  exact h

theorem isNeutral_literal_bool (b : Bool) :
    ∀ c ∈ (Dialect.mysql.literal (.bool b)).toList, isNeutral c = true := by
  cases b <;> exact List.all_eq_true.mp rfl

theorem isNeutral_literal_float (x : Float) :
    ∀ c ∈ (Dialect.mysql.literal (.float x)).toList, isNeutral c = true := by
  unfold Dialect.mysql Dialect.literalWith
  dsimp only
  split_ifs
  · exact fun _ hc => isNeutral_of_isNumeralChar (FloatLayout.plain.isNumeralChar_of_mem_write hc)
  · exact List.all_eq_true.mp rfl

theorem literal_dateTime (t : DateTime) : Dialect.mysql.literal (.dateTime t)
    = String.ofList ('\'' :: t.statementText.toList ++ ['\'']) :=
  String.toList_inj.mp (by simp [Dialect.mysql, Dialect.literalWith])

theorem body_escaped {s : String → String} (hs : ∀ text, s text = "" ↔ text = "") (text : String) :
    (quoting plain hplain).body (text.toList.flatMap Dialect.escapeChar)
      ((s text).toList.flatMap Dialect.escapeChar) := by
  refine ⟨.flatMap_escapeChar _, .flatMap_escapeChar _, ?_⟩
  rw [Dialect.flatMap_escapeChar_eq_nil, Dialect.flatMap_escapeChar_eq_nil,
    String.toList_eq_nil_iff, String.toList_eq_nil_iff, hs]

/-- Replacing texts, the empty one by itself and no other by the empty one, leaves every literal as
it is but for what stands between quotes. -/
theorem standard_replaces {s : String → String} (hs : ∀ text, s text = "" ↔ text = "") :
    (quoting plain hplain).Replaces .standard (Value.mapText s) where
  literal v := by
    rcases v with _ | b | n | x | text | t
    · exact Like.words fun _ => rfl
    · exact Like.of_neutral (isNeutral_literal_bool b)
    · exact Like.integer n.toInt
    · exact Like.of_neutral (isNeutral_literal_float x)
    · exact Like.literal (body_escaped plain hplain hs text)
    · have hbody := body_of_neutral (quoting plain hplain) _ (DateTime.isNeutral_statementText t)
      exact literal_dateTime t ▸ Like.literal hbody
  argument v := by
    rcases v with _ | b | n | x | text | t
    · exact ⟨Like.words fun _ => rfl, .none, rfl, rfl⟩
    · exact .neutral none (isNeutral_literal_bool b)
    · exact .neutral (some n) fun _ h => isNeutral_of_isNumeralChar (isNumeralChar_of_mem_toString h)
    · exact .neutral none (isNeutral_literal_float x)
    · exact .quoted (body_escaped plain hplain hs text)
    · have hargument : SqlWriter.standard.literalArgument (.dateTime t)
          = .quoted (String.ofList ('\'' :: t.statementText.toList ++ ['\''])) :=
        congrArg Argument.quoted (literal_dateTime t)
      have hbody := body_of_neutral (quoting plain hplain) _ (DateTime.isNeutral_statementText t)
      exact hargument ▸ .quoted hbody
  isNull v := by cases v <;> rfl

end Likeness

end QueryCompiler
