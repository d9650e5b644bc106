import QueryCompiler.Function.Catalogue
import QueryCompiler.Proofs.Likeness
import QueryCompiler.Proofs.NumberText
import QueryCompiler.Proofs.Outcome

/-!
# Calls of functions with like arguments

A call of a function gives like texts for like arguments, or is refused for causes that tell of like
texts (`Catalogue.agree_render`). A literal inside a pattern stays a literal: its body stands
between the anchors of the pattern, behind the same quote.
-/

namespace QueryCompiler

theorem isNeutral_of_isNumeralChar {c : Char} (h : isNumeralChar c = true) :
    isNeutral c = true := by
  have hdigit : ∀ c : Char, c.isDigit = true → isNeutral c = true := by
    intro c hc
    rw [isNeutral, Bool.and_eq_true, Bool.and_eq_true, Bool.and_eq_true]
    refine ⟨⟨⟨?_, ?_⟩, ?_⟩, ?_⟩
    all_goals
      rw [decide_eq_true_eq]
      rintro rfl
      cases hc
  exact of_isNumeralChar hdigit (List.all_eq_true.mp rfl) h

namespace Likeness

variable {L : Likeness}

theorem Like.of_neutral {s : String} (h : ∀ c ∈ s.toList, isNeutral c = true) : L.Like s s :=
  Like.of_plain fun c hc => L.plain_of_neutral c (h c hc)

theorem Like.integer (n : ℤ) : L.Like (toString n) (toString n) :=
  Like.of_neutral fun _ h => isNeutral_of_isNumeralChar (isNumeralChar_of_mem_toString h)

theorem Like.closed_integer {s s' : String}
    (h : ∀ n, L.Alike n s.toList s'.toList (n + 1)) (i : ℤ) :
    L.Like (s ++ "," ++ toString i ++ ")") (s' ++ "," ++ toString i ++ ")") :=
  Like.closed fun n => by
    simp only [String.toList_append]
    exact ((h n).append (Alike.of_brackets rfl)).append (Like.integer i (n + 1))

/-- The arguments are alike: their texts, their patterns, and what else a function asks of them. -/
structure LikeArgument (L : Likeness) (a a' : Argument) : Prop where
  sql : L.Like a.sql a'.sql
  pattern : Option.Rel (fun p p' : String => L.body p.toList p'.toList) a.pattern a'.pattern
  isNull : a.isNull = a'.isNull
  integer : a.integer = a'.integer

/-- Causes for refusing a call that are equal but for a text that they tell. -/
inductive LikeFault (L : Likeness) : FunctionError → FunctionError → Prop
  | same (e : FunctionError) : LikeFault L e e
  | pattern (name : String) {sql sql' : String} (h : L.Like sql sql') :
      LikeFault L (.invalidArgument name (.patternNotLiteral sql))
        (.invalidArgument name (.patternNotLiteral sql'))

variable {args args' : List Argument}

theorem getElem?_rel (h : List.Forall₂ L.LikeArgument args args') :
    ∀ i : ℕ, Option.Rel L.LikeArgument args[i]? args'[i]? := by
  induction h with
  | nil => exact fun _ => .none
  | cons ha _ ih =>
    intro i
    rcases i with _ | i
    · exact .some ha
    · simpa using ih i

theorem present?_rel (h : List.Forall₂ L.LikeArgument args args') (i : ℕ) :
    Option.Rel L.LikeArgument (Argument.present? args i) (Argument.present? args' i) := by
  have hi := getElem?_rel h i
  unfold Argument.present?
  generalize args[i]? = a at hi ⊢
  generalize args'[i]? = a' at hi ⊢
  rcases hi with ha | _
  · rw [Option.filter_some, Option.filter_some, ha.isNull]
    split_ifs
    · exact .some ha
    · exact .none
  · exact .none

theorem like_sqlAt (h : List.Forall₂ L.LikeArgument args args') (i : ℕ) :
    L.Like (Argument.sqlAt args i) (Argument.sqlAt args' i) := by
  have hi := getElem?_rel h i
  unfold Argument.sqlAt
  generalize args[i]? = a at hi ⊢
  generalize args'[i]? = a' at hi ⊢
  rcases hi with ha | _
  · exact ha.sql
  · exact Like.words fun _ => rfl

theorem agree_patternText (name : String) {a a' : Argument} (h : L.LikeArgument a a') :
    Agree L.LikeFault (fun p p' : String => L.body p.toList p'.toList)
      (Renderer.patternText name a) (Renderer.patternText name a') := by
  have hpattern := h.pattern
  unfold Renderer.patternText
  generalize a.pattern = p at hpattern ⊢
  generalize a'.pattern = p' at hpattern ⊢
  rcases hpattern with hbody | _
  · exact .ok hbody
  · exact .error (.pattern name h.sql)

/-- What is looked up in a table has only characters that all texts of the table have. -/
theorem forall_of_lookup {p : Char → Bool} {table : List (String × String)} {name text : String}
    (htable : (table.all fun entry => entry.2.toList.all p) = true)
    (h : table.lookup name = some text) : ∀ c ∈ text.toList, p c = true := by
  obtain ⟨before, after, heq, -⟩ := List.lookup_eq_some_iff.mp h
  have hmem : (name, text) ∈ table := by
    rw [heq]
    simp
  exact List.all_eq_true.mp (List.all_eq_true.mp htable _ hmem)

/-- A name that is looked up in a table of neutral names is neutral. -/
theorem Like.of_lookup {table : List (String × String)} {name text : String}
    (htable : (table.all fun entry => entry.2.toList.all isNeutral) = true)
    (h : table.lookup name = some text) : L.Like text text :=
  Like.of_neutral (forall_of_lookup htable h)

/-- The text and the pattern between the brackets of a comparison with a regular expression. -/
def regexpSides (subject before body after : String) : String :=
  subject ++ " REGEXP " ++
    String.ofList ('\'' :: (before.toList ++ body.toList ++ after.toList) ++ ['\''])

theorem regexp_eq (subject before body after : String) :
    Renderer.regexp subject before body after
      = "(" ++ regexpSides subject before body after ++ ")" :=
  String.toList_inj.mp (by simp [Renderer.regexp, regexpSides])

theorem like_regexpSides {a a' b b' before after : String} (ha : L.Like a a')
    (hb : L.body b.toList b'.toList) (hbefore : ∀ c ∈ before.toList, isNeutral c = true)
    (hafter : ∀ c ∈ after.toList, isNeutral c = true) :
    L.Like (regexpSides a before b after) (regexpSides a' before b' after) :=
  have hbody := L.body_append (L.body_append (L.body_of_neutral _ hbefore) hb)
    (L.body_of_neutral _ hafter)
  (ha.append (Like.words fun _ => rfl)).append (Like.literal hbody)

theorem like_regexp {a a' b b' before after : String} (ha : L.Like a a')
    (hb : L.body b.toList b'.toList) (hbefore : ∀ c ∈ before.toList, isNeutral c = true)
    (hafter : ∀ c ∈ after.toList, isNeutral c = true) :
    L.Like (Renderer.regexp a before b after) (Renderer.regexp a' before b' after) := by
  rw [regexp_eq, regexp_eq]
  exact (like_regexpSides ha hb hbefore hafter).brackets

theorem Like.pair {words a a' b b' : String}
    (hwords : ∀ n, bracketsBehind? n words.toList = some (n + 1)) (ha : L.Like a a')
    (hb : L.Like b b') : L.Like (words ++ a ++ "," ++ b ++ ")") (words ++ a' ++ "," ++ b' ++ ")") :=
  Like.closed fun n => by
    simp only [String.toList_append]
    exact (((Alike.of_brackets (hwords n)).append (ha (n + 1))).append
      (Alike.of_brackets rfl)).append (hb (n + 1))

section Calls

variable (name : String) (h : List.Forall₂ L.LikeArgument args args')

include h

/-- The first two arguments are there on both sides, or one of them is missing on both. -/
theorem agree_present {f f' : Argument → Argument → Except FunctionError String} {other : String}
    (hother : L.Like other other) (hf : ∀ {a a' b b'}, L.LikeArgument a a' → L.LikeArgument b b' →
      Agree L.LikeFault L.Like (f a b) (f' a' b')) :
    Agree L.LikeFault L.Like
      (match Argument.present? args 0, Argument.present? args 1 with
        | some a, some b => f a b
        | _, _ => .ok other)
      (match Argument.present? args' 0, Argument.present? args' 1 with
        | some a, some b => f' a b
        | _, _ => .ok other) := by
  have h₀ := present?_rel h 0
  have h₁ := present?_rel h 1
  generalize Argument.present? args 0 = a at h₀ ⊢
  generalize Argument.present? args' 0 = a' at h₀ ⊢
  generalize Argument.present? args 1 = b at h₁ ⊢
  generalize Argument.present? args' 1 = b' at h₁ ⊢
  rcases h₀ with ha | _
  · rcases h₁ with hb | _
    · exact hf ha hb
    · exact .ok hother
  · exact .ok hother

theorem agree_patternCall {before after : String}
    (hbefore : ∀ c ∈ before.toList, isNeutral c = true)
    (hafter : ∀ c ∈ after.toList, isNeutral c = true) :
    Agree L.LikeFault L.Like (Renderer.patternCall name before after args)
      (Renderer.patternCall name before after args') :=
  agree_present h Like.empty fun ha hb => (agree_patternText name hb).bind fun _ _ hp =>
    .ok (like_regexp ha.sql hp hbefore hafter)

theorem agree_containsCall : Agree L.LikeFault L.Like (Renderer.containsCall name args)
    (Renderer.containsCall name args') := by
  refine agree_present h Like.empty fun ha hb => ?_
  refine (agree_patternText name hb).bind fun p p' hp => .ok ?_
  have hempty : p = "" ↔ p' = "" := by
    rw [← String.toList_eq_nil_iff, ← String.toList_eq_nil_iff]
    exact L.body_eq_nil hp
  simp only [hempty]
  split_ifs
  · exact Like.empty
  · exact like_regexp ha.sql hp (by simp) (by simp)

theorem agree_unary : Agree L.LikeFault L.Like (Renderer.unary.render name args)
    (Renderer.unary.render name args') := by
  simp only [Renderer.render]
  split
  · rename_i sqlName hname
    have hsql : L.Like sqlName sqlName := Like.of_lookup (by decide) hname
    refine .ok (Like.closed fun n => ?_)
    simp only [String.toList_append]
    exact ((hsql n).append (Alike.of_brackets rfl)).append (like_sqlAt h 0 (n + 1))
  · exact .error (.same _)

theorem agree_arithmetic : Agree L.LikeFault L.Like (Renderer.arithmetic.render name args)
    (Renderer.arithmetic.render name args') := by
  simp only [Renderer.render]
  split
  · exact .error (.same _)
  · rename_i sign hsign
    have hsql : L.Like sign sign := Like.of_lookup (by decide) hsign
    refine agree_present h (Like.words fun _ => rfl) fun ha hb => .ok (Like.closed fun n => ?_)
    simp only [String.toList_append]
    exact (((((Alike.of_brackets rfl).append (ha.sql (n + 1))).append
      (Alike.of_brackets rfl)).append (hsql (n + 1))).append (Alike.of_brackets rfl)).append
        (hb.sql (n + 1))

theorem like_digits :
    L.Like (((Argument.present? args 1).map Argument.sql).getD "0")
      (((Argument.present? args' 1).map Argument.sql).getD "0") := by
  have h₁ := present?_rel h 1
  generalize Argument.present? args 1 = b at h₁ ⊢
  generalize Argument.present? args' 1 = b' at h₁ ⊢
  rcases h₁ with hb | _
  · exact hb.sql
  · exact Like.words fun _ => rfl

theorem agree_round : Agree L.LikeFault L.Like (Renderer.round.render name args)
    (Renderer.round.render name args') :=
  .ok (Like.pair (fun _ => rfl) (like_sqlAt h 0) (like_digits h))

theorem agree_substring : Agree L.LikeFault L.Like (Renderer.substringCall name args)
    (Renderer.substringCall name args') := by
  have hstart : (Argument.present? args 1).bind Argument.integer
      = (Argument.present? args' 1).bind Argument.integer := by
    have h₁ := present?_rel h 1
    generalize Argument.present? args 1 = b at h₁ ⊢
    generalize Argument.present? args' 1 = b' at h₁ ⊢
    rcases h₁ with hb | _
    · exact hb.integer
    · rfl
  have h₂ := present?_rel h 2
  unfold Renderer.substringCall
  rw [hstart]
  generalize (Argument.present? args' 1).bind Argument.integer = start
  rcases start with _ | start
  · exact .error (.same _)
  · simp only [pure_bind]
    rcases int64? (start.toInt + 1) with _ | position
    · exact .error (.same _)
    · simp only
      generalize Argument.present? args 2 = b at h₂ ⊢
      generalize Argument.present? args' 2 = b' at h₂ ⊢
      have hopening : ∀ n, L.Alike n
          ("SUBSTRING(" ++ Argument.sqlAt args 0 ++ "," ++ toString position.toInt).toList
          ("SUBSTRING(" ++ Argument.sqlAt args' 0 ++ "," ++ toString position.toInt).toList
          (n + 1) := fun n => by
        simp only [String.toList_append]
        exact (((Alike.of_brackets rfl).append (like_sqlAt h 0 (n + 1))).append
          (Alike.of_brackets rfl)).append (Like.integer position.toInt (n + 1))
      rcases h₂ with @⟨b, b', hb⟩ | _
      · dsimp only
        rw [hb.integer]
        rcases b'.integer with _ | length
        · exact .error (.same _)
        · refine .ok ?_
          split_ifs
          · exact Like.closed hopening
          · exact Like.closed_integer hopening length.toInt
      · exact .ok (Like.closed hopening)

theorem agree_render (renderer : Renderer) : Agree L.LikeFault L.Like (renderer.render name args)
    (renderer.render name args') := by
  cases renderer
  case startsWith => exact agree_patternCall name h (by simp [isNeutral]) (by simp)
  case endsWith => exact agree_patternCall name h (by simp) (by simp [isNeutral])
  case contains => exact agree_containsCall name h
  case unary => exact agree_unary name h
  case concat => exact .ok (Like.pair (fun _ => rfl) (like_sqlAt h 0) (like_sqlAt h 1))
  case indexOf => exact .ok (Like.pair (fun _ => rfl) (like_sqlAt h 1) (like_sqlAt h 0))
  case substring => exact agree_substring name h
  case round => exact agree_round name h
  case arithmetic => exact agree_arithmetic name h

end Calls

end Likeness

/-- A call of a function of the catalogue gives like texts for like arguments. -/
theorem Catalogue.agree_render {L : Likeness} (c : Catalogue) (name : String)
    {args args' : List Argument} (h : List.Forall₂ L.LikeArgument args args') :
    Agree L.LikeFault L.Like (c.render name args) (c.render name args') := by
  unfold render
  rcases c.lookup name with e | signature
  · exact .error (.same e)
  · show Agree _ _ (if _ then _ else _) (if _ then _ else _)
    rw [h.length_eq]
    split_ifs
    · exact .error (.same _)
    · exact Likeness.agree_render name h _

end QueryCompiler
