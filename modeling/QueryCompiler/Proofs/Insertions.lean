import Mathlib
import QueryCompiler.Proofs.BlankFields
import QueryCompiler.Proofs.Grouping

/-!
# The values of an insertion

The values of an insertion stand between commas, one for each column. A comma inside of a literal,
of a call or of a sub-query is no end of a value (`Unbroken`). But a list stands there without
brackets of its own, and so it is as many values as it has items; and a field without an expression
is no value at all. So each column gets its value exactly if each operand is an item
(`Operand.IsItem`).
-/

namespace QueryCompiler

/-- The character opens nothing, closes nothing and separates nothing. -/
def isInert (c : Char) : Bool :=
  isNeutral c && c ≠ ','

/-- No comma of the text is found outside of quotes and of brackets, and the text closes what it
opens: a search for commas goes on behind it as if it had begun there. -/
def Unbroken (s : String) : Prop :=
  ∀ t, cut [','] 0 .outermost (s.toList ++ t)
    = (cut [','] 0 .outermost t).modifyHead (s.toList ++ ·)

/-- The texts as they stand between commas: each but the first one behind a blank. -/
def behindBlanks : List String → List String
  | [] => []
  | first :: rest => first :: rest.map (" " ++ ·)

mutual

/-- The operand is one value between commas. -/
def Operand.IsItem : Operand → Prop
  | .value _ | .query _ => True
  | .field f => ¬ f.IsBlank
  | .list items => Operand.AreItem items

/-- The operands together are one value between commas. -/
def Operand.AreItem : List Operand → Prop
  | [x] => x.IsItem
  | _ => False

end

theorem isInert_iff {c : Char} : isInert c = true ↔ isNeutral c = true ∧ c ≠ ',' := by
  rw [isInert, Bool.and_eq_true, decide_eq_true_eq]

theorem isInert_of_isNumeralChar {c : Char} (h : isNumeralChar c = true) : isInert c = true := by
  refine isInert_iff.mpr ⟨isNeutral_of_isNumeralChar h, ?_⟩
  rintro rfl
  revert h
  decide

theorem Law.spelled_mono {p p' : Char → Prop} (h : ∀ c, p' c → p c) :
    (Law.spelled p).Weaker (.spelled p') := by
  have hname : ∀ name : String, Spelled p' name → Spelled p name := fun name hname c hc =>
    h c (hname c hc)
  have hlabel : ∀ label : Option String, (∀ name ∈ label, Spelled p' name) →
      ∀ name ∈ label, Spelled p name := fun label hlabel name hmem =>
    hname name (hlabel name hmem)
  refine ⟨fun _ => id, ?_, fun _ => id, ?_, ?_, hname, fun s => hname s.entity, fun _ => id, ?_,
    fun j => hlabel j.label, fun q => hlabel q.label⟩
  · rintro (text | ⟨entity, text⟩ | ⟨label, expression⟩ | ⟨label, func, text⟩ | ⟨label, func, args⟩ |
      ⟨v, label⟩) hf
    · exact hname _ hf
    · exact ⟨hname _ hf.1, hname _ hf.2⟩
    · exact ⟨hname _ hf.1, hname _ hf.2⟩
    · exact ⟨hname _ hf.1, hname _ hf.2⟩
    · exact hname _ hf
    · exact hlabel _ hf
  · rintro (⟨connective, operands⟩ | ⟨text, t⟩ | ⟨text, func, args, ts⟩) hf
    · trivial
    · exact hname _ hf
    · exact hname _ hf
  · exact fun e he => ⟨hname _ he.1, hlabel _ he.2⟩
  · exact fun s hs => ⟨hname _ hs.1, fun column hcolumn => hname _ (hs.2 column hcolumn)⟩

/-! ## Texts without a comma outside -/

namespace Unbroken

variable {s t : String}

theorem empty : Unbroken "" := fun _ =>
  List.modifyHead_id.symm ▸ rfl

theorem append (hs : Unbroken s) (ht : Unbroken t) : Unbroken (s ++ t) := fun u => by
  rw [String.toList_append, List.append_assoc, hs, ht, List.modifyHead_modifyHead]
  congr 1
  funext
  simp

theorem of_inert (h : ∀ c ∈ s.toList, isInert c = true) : Unbroken s := fun t => by
  generalize s.toList = cs at h ⊢
  induction cs with
  | nil => exact List.modifyHead_id.symm ▸ rfl
  | cons c cs ih =>
    obtain ⟨hc, hcs⟩ := List.forall_mem_cons.mp h
    obtain ⟨hneutral, hcomma⟩ := isInert_iff.mp hc
    have hnext : Place.outermost.next c = .outermost := Place.next_neutral 0 hneutral
    rw [List.cons_append, cut, if_neg (by simp [Ne.symm hcomma]), hnext, ih hcs,
      List.modifyHead_modifyHead]
    rfl

theorem brackets {i i' : String} (h : Likeness.grouping.Like i i') :
    Unbroken ("(" ++ i ++ ")") :=
  Likeness.cut_brackets h rfl []

theorem call {word i i' : String} (hword : ∀ c ∈ word.toList, isInert c = true)
    (h : Likeness.grouping.Like i i') : Unbroken (word ++ "(" ++ i ++ ")") := by
  have htext : word ++ "(" ++ i ++ ")" = word ++ ("(" ++ i ++ ")") := by
    simp only [String.append_assoc]
  rw [htext]
  exact (of_inert hword).append (brackets h)

theorem literal {b : List Char} (h : IsBody b) :
    Unbroken (String.ofList ('\'' :: b ++ ['\''])) := fun t => by
  have hpasses : Place.Passes 1 ⟨.inside, 0⟩ (b ++ ['\'']) .outermost :=
    .body h (.cons_of_ne (by decide) (.nil _))
  rw [String.toList_ofList, List.cons_append, List.cons_append, cut, if_neg (by simp)]
  refine (congrArg (List.modifyHead ('\'' :: ·)) (hpasses.cut_append [','] t)).trans ?_
  rw [List.modifyHead_modifyHead]
  rfl

theorem pieces_eq (h : Unbroken s) : pieces "," s = [s] := by
  have hcut := h []
  rw [List.append_nil] at hcut
  have htext : pieces "," s = (cut [','] 0 .outermost s.toList).map String.ofList := rfl
  rw [htext, hcut]
  simp [cut]

end Unbroken

/-! ## What is written without a comma outside -/

theorem Unbroken.mysql_literal (v : Value) : Unbroken (Dialect.mysql.literal v) := by
  have hnull : Unbroken "NULL" := of_inert (List.all_eq_true.mp rfl)
  cases v with
  | null => exact hnull
  | bool b => exact of_inert (by cases b <;> exact List.all_eq_true.mp rfl)
  | integer n =>
    exact of_inert fun c hc => isInert_of_isNumeralChar (isNumeralChar_of_mem_toString hc)
  | float x =>
    change Unbroken (if x.isFinite then FloatLayout.plain.write x else "NULL")
    split_ifs
    · exact of_inert fun c hc =>
        isInert_of_isNumeralChar (FloatLayout.plain.isNumeralChar_of_mem_write hc)
    · exact hnull
  | string s => exact literal (.flatMap_escapeChar _)
  | dateTime t =>
    rw [Likeness.literal_dateTime]
    exact literal (.of_neutral (DateTime.isNeutral_statementText t))

namespace Renderer

open Argument (present? sqlAt)
open Likeness (grouping)

variable {name : String} {as as' : List Argument} (h : List.Forall₂ grouping.LikeArgument as as')

/-- A call of two arguments. -/
theorem unbroken_pair (word : String) {a a' b b' : String}
    (hword : ∀ c ∈ word.toList, isInert c = true) (ha : grouping.Like a a')
    (hb : grouping.Like b b') : Unbroken (word ++ "(" ++ a ++ "," ++ b ++ ")") := by
  have htext : word ++ "(" ++ a ++ "," ++ b ++ ")" = word ++ "(" ++ (a ++ "," ++ b) ++ ")" := by
    simp only [String.append_assoc]
  rw [htext]
  exact .call hword ((ha.append (.words fun _ => rfl)).append hb)

theorem unbroken_regexp {a a' b b' before after : String} (ha : grouping.Like a a')
    (hb : grouping.body b.toList b'.toList) (hbefore : ∀ c ∈ before.toList, isNeutral c = true)
    (hafter : ∀ c ∈ after.toList, isNeutral c = true) :
    Unbroken (regexp a before b after) := by
  rw [Likeness.regexp_eq]
  exact .brackets (Likeness.like_regexpSides ha hb hbefore hafter)

include h

/-- The first two arguments are there, or one of them is missing. -/
theorem ensures_unbroken_present {f : Argument → Argument → Except FunctionError String}
    {other : String} (hother : Unbroken other)
    (hf : ∀ {a a' b b'}, grouping.LikeArgument a a' → grouping.LikeArgument b b' →
      Ensures (f a b) Unbroken) :
    Ensures
      (match present? as 0, present? as 1 with
        | some a, some b => f a b
        | _, _ => .ok other) Unbroken := by
  have h₀ := Likeness.present?_rel h 0
  have h₁ := Likeness.present?_rel h 1
  generalize present? as 0 = a at h₀ ⊢
  generalize present? as 1 = b at h₁ ⊢
  generalize present? as' 0 = a' at h₀
  generalize present? as' 1 = b' at h₁
  rcases h₀ with ha | _
  · rcases h₁ with hb | _
    · exact hf ha hb
    · exact .ok hother
  · exact .ok hother

theorem ensures_unbroken_patternCall {before after : String}
    (hbefore : ∀ c ∈ before.toList, isNeutral c = true)
    (hafter : ∀ c ∈ after.toList, isNeutral c = true) :
    Ensures (patternCall name before after as) Unbroken :=
  ensures_unbroken_present h .empty fun ha hb =>
    (Likeness.agree_patternText name hb).ensures.bind fun _ ⟨_, hbody⟩ =>
      .ok (unbroken_regexp ha.sql hbody hbefore hafter)

theorem ensures_unbroken_containsCall : Ensures (containsCall name as) Unbroken := by
  refine ensures_unbroken_present h .empty fun ha hb => ?_
  refine (Likeness.agree_patternText name hb).ensures.bind fun _ ⟨_, hbody⟩ => .ok ?_
  split_ifs
  · exact .empty
  · exact unbroken_regexp ha.sql hbody (by simp) (by simp)

theorem ensures_unbroken_substringCall : Ensures (substringCall name as) Unbroken := by
  have hfield := Likeness.like_sqlAt h 0
  have hword : ∀ c ∈ "SUBSTRING".toList, isInert c = true := List.all_eq_true.mp rfl
  have hcomma : grouping.Like "," "," := .words fun _ => rfl
  have hshort : ∀ n : ℤ, Unbroken ("SUBSTRING(" ++ sqlAt as 0 ++ "," ++ toString n ++ ")") := fun n =>
    unbroken_pair "SUBSTRING" hword hfield (.integer n)
  have hlong : ∀ n k : ℤ, Unbroken
      ("SUBSTRING(" ++ sqlAt as 0 ++ "," ++ toString n ++ "," ++ toString k ++ ")") := fun n k => by
    have htext : "SUBSTRING(" ++ sqlAt as 0 ++ "," ++ toString n ++ "," ++ toString k ++ ")"
        = "SUBSTRING" ++ "(" ++ (sqlAt as 0 ++ "," ++ toString n) ++ "," ++ toString k ++ ")" := by
      simp only [String.append_assoc]
      rfl
    rw [htext]
    exact unbroken_pair _ hword ((hfield.append hcomma).append (.integer n)) (.integer k)
  unfold substringCall
  dsimp only
  split
  · refine Ensures.bind (.trivial _) fun start _ => ?_
    split
    · refine Ensures.bind (.trivial _) fun position _ => ?_
      split
      · exact .ok (hshort _)
      · split
        · exact .error _
        · refine .ok ?_
          split_ifs
          · exact hshort _
          · exact hlong _ _
    · exact .error _
  · exact .error _

theorem ensures_unbroken (renderer : Renderer) : Ensures (renderer.render name as) Unbroken := by
  have hat := Likeness.like_sqlAt h
  cases renderer with
  | startsWith => exact ensures_unbroken_patternCall h (by simp [isNeutral]) (by simp)
  | endsWith => exact ensures_unbroken_patternCall h (by simp) (by simp [isNeutral])
  | contains => exact ensures_unbroken_containsCall h
  | unary =>
    unfold render
    dsimp only
    split
    · rename_i sqlName hname
      exact .ok (.call (Likeness.forall_of_lookup (by decide) hname) (hat 0))
    · exact .error _
  | concat => exact .ok (unbroken_pair "CONCAT" (List.all_eq_true.mp rfl) (hat 0) (hat 1))
  | indexOf => exact .ok (unbroken_pair "LOCATE" (List.all_eq_true.mp rfl) (hat 1) (hat 0))
  | substring => exact ensures_unbroken_substringCall h
  | round =>
    have hdigits := Likeness.like_digits h
    exact .ok (unbroken_pair "ROUND" (List.all_eq_true.mp rfl) (hat 0) hdigits)
  | arithmetic =>
    unfold render
    dsimp only
    split
    · exact .error _
    · rename_i sign hsign
      have hzero : Unbroken "0" := .of_inert (List.all_eq_true.mp rfl)
      have hsign : grouping.Like sign sign := .of_lookup (by decide) hsign
      have hblank : grouping.Like " " " " := .words fun _ => rfl
      refine ensures_unbroken_present h hzero fun {a _ b _} ha hb => .ok ?_
      have htext : "(" ++ a.sql ++ " " ++ sign ++ " " ++ b.sql ++ ")"
          = "(" ++ (a.sql ++ " " ++ sign ++ " " ++ b.sql) ++ ")" := by
        simp only [String.append_assoc]
      rw [htext]
      exact .brackets ((((ha.sql.append hblank).append hsign).append hblank).append hb.sql)

end Renderer

/-! ## Pieces between commas -/

theorem cut_ne_nil (separator : List Char) : ∀ (skip : ℕ) (place : Place) (cs : List Char),
    cut separator skip place cs ≠ []
  | _, _, [] => by simp [cut]
  | skip + 1, place, c :: cs => by
    rw [cut]
    exact cut_ne_nil separator skip _ cs
  | 0, place, c :: cs => by
    rw [cut]
    split_ifs
    · exact List.cons_ne_nil _ _
    · simpa using cut_ne_nil separator 0 _ cs

/-- The text is cut at the comma, if it closes what it opens. -/
theorem cut_comma {place : Place} {s : List Char} (h : Place.Passes 0 place s .outermost)
    (t : List Char) : cut [','] 0 place (s ++ ',' :: t)
      = cut [','] 0 place s ++ cut [','] 0 .outermost t := by
  generalize hend : Place.outermost = place' at h
  induction h with
  | nil =>
    subst hend
    rfl
  | @cons place place' c cs _ _ ih =>
    have hprefix : ∀ u, [','].isPrefixOf (c :: u) = (',' == c) := fun _ => Bool.and_true _
    rw [List.cons_append, cut, cut, hprefix, hprefix]
    split_ifs
    · exact congrArg ([] :: ·) (ih hend)
    · rw [ih hend]
      obtain ⟨first, rest, hcut⟩ := List.exists_cons_of_ne_nil (cut_ne_nil [','] 0 (place.next c) cs)
      rw [hcut]
      rfl

theorem pieces_comma {s : String} (h : Place.Passes 0 .outermost s.toList .outermost) (t : String) :
    pieces "," (s ++ ", " ++ t) = pieces "," s ++ (pieces "," t).modifyHead (" " ++ ·) := by
  have htext : (s ++ ", " ++ t).toList = s.toList ++ ',' :: ' ' :: t.toList := by simp
  have hcomma : ",".toList = [','] := rfl
  have hblank : cut [','] 0 .outermost (' ' :: t.toList)
      = (cut [','] 0 .outermost t.toList).modifyHead (' ' :: ·) := rfl
  rw [pieces, pieces, pieces, hcomma, htext, cut_comma h, List.map_append, hblank]
  obtain ⟨first, rest, hcut⟩ := List.exists_cons_of_ne_nil
    (cut_ne_nil [','] 0 .outermost t.toList)
  rw [hcut]
  simp

theorem pieces_ne_nil (separator sql : String) : pieces separator sql ≠ [] := by
  simpa [pieces] using cut_ne_nil separator.toList 0 .outermost sql.toList

/-- The text is one value between commas if and only if `p` holds. -/
structure IsValueText (p : Prop) (sql : String) : Prop where
  whole : p → Unbroken sql ∧ sql ≠ ""
  broken : ¬ p → sql = "" ∨ 2 ≤ (pieces "," sql).length

namespace IsValueText

variable {p : Prop} {sql : String}

theorem unbroken_iff (h : IsValueText p sql) : Unbroken sql ∧ sql ≠ "" ↔ p := by
  refine ⟨fun ⟨hunbroken, hne⟩ => by_contra fun hp => ?_, h.whole⟩
  rcases h.broken hp with hempty | hpieces
  · exact hne hempty
  · rw [hunbroken.pieces_eq] at hpieces
    exact absurd hpieces (by simp)

theorem length_pieces_iff (h : IsValueText p sql) : (pieces "," sql).length = 1 ∧ sql ≠ "" ↔ p := by
  refine ⟨fun ⟨hone, hne⟩ => by_contra fun hp => ?_, fun hp => ?_⟩
  · rcases h.broken hp with hempty | hpieces
    · exact hne hempty
    · omega
  · obtain ⟨hunbroken, hne⟩ := h.whole hp
    exact ⟨congrArg List.length hunbroken.pieces_eq, hne⟩

end IsValueText

/-- Values stand apart from one another where each of them is whole. -/
theorem pieces_joined : ∀ {sqls : List String}, sqls ≠ [] →
    (∀ sql ∈ sqls, Place.Passes 0 .outermost sql.toList .outermost ∧ Unbroken sql) →
      pieces "," (Text.joined ", " sqls) = behindBlanks sqls
  | [], h, _ => absurd rfl h
  | [sql], _, h => (h sql List.mem_cons_self).2.pieces_eq
  | sql :: next :: rest, _, h => by
    obtain ⟨hsql, hrest⟩ := List.forall_mem_cons.mp h
    rw [Text.joined_cons_cons, pieces_comma hsql.1, hsql.2.pieces_eq,
      pieces_joined (List.cons_ne_nil next rest) hrest]
    rfl

/-- There are as many pieces as the texts have together. -/
theorem length_pieces_joined : ∀ {sqls : List String}, sqls ≠ [] →
    (∀ sql ∈ sqls, Place.Passes 0 .outermost sql.toList .outermost) →
      (pieces "," (Text.joined ", " sqls)).length
        = (sqls.map fun sql => (pieces "," sql).length).sum
  | [], h, _ => absurd rfl h
  | [sql], _, _ => by simp [Text.joined]
  | sql :: next :: rest, _, h => by
    obtain ⟨hsql, hrest⟩ := List.forall_mem_cons.mp h
    rw [Text.joined_cons_cons, pieces_comma hsql, List.length_append, List.length_modifyHead,
      length_pieces_joined (List.cons_ne_nil next rest) hrest]
    simp only [List.map_cons, List.sum_cons]

theorem length_behindBlanks : ∀ texts : List String, (behindBlanks texts).length = texts.length
  | [] => rfl
  | _ :: _ => by simp [behindBlanks]

/-- If there are as many pieces as texts, then each text is one piece. -/
theorem length_pieces_of_behindBlanks {sqls : List String} (hne : sqls ≠ [])
    (hcloses : ∀ sql ∈ sqls, Place.Passes 0 .outermost sql.toList .outermost)
    (h : pieces "," (Text.joined ", " sqls) = behindBlanks sqls) :
    ∀ sql ∈ sqls, (pieces "," sql).length = 1 := by
  have hone : ∀ sql, 1 ≤ (pieces "," sql).length := fun sql =>
    List.length_pos_of_ne_nil (pieces_ne_nil "," sql)
  have hsum : (sqls.map fun sql => (pieces "," sql).length).sum = sqls.length := by
    rw [← length_pieces_joined hne hcloses, h, length_behindBlanks]
  clear h hne hcloses
  induction sqls with
  | nil => simp
  | cons sql sqls ih =>
    have hrest : (sqls.map fun sql => (pieces "," sql).length).length
        ≤ (sqls.map fun sql => (pieces "," sql).length).sum :=
      List.length_le_sum_of_one_le _ (by simpa using fun sql _ => hone sql)
    have hsql := hone sql
    rw [List.map_cons, List.sum_cons, List.length_cons] at hsum
    rw [List.length_map] at hrest
    exact List.forall_mem_cons.mpr ⟨by omega, ih (by omega)⟩

/-! ## Values -/

namespace SqlWriter

open Likeness (grouping grouping_replaces)

/-- Where names are inert, nothing in a name opens or closes anything. -/
theorem grouping_weaker :
    (Law.spelled grouping.plain).Weaker (.spelled fun c => isInert c = true) :=
  Law.spelled_mono fun _ hc => (isInert_iff.mp hc).1

theorem ensures_unbroken_call (func : String) {as as' : List Argument}
    (h : List.Forall₂ grouping.LikeArgument as as') :
    Ensures (standard.call func as) Unbroken := by
  have hrender : Ensures (standard.functions.render func as) Unbroken :=
    (Ensures.trivial _).bind fun signature _ =>
      .ite (fun _ => .error _) fun _ => Renderer.ensures_unbroken h signature.renderer
  exact hrender.mapError

theorem ensures_unbroken_field {f : Field} (hf : f.Obeys (.spelled fun c => isInert c = true)) :
    Ensures (standard.field .reference f) Unbroken := by
  cases f with
  | name text => exact .ok (.of_inert hf)
  | qualified entity text =>
    have hpoint : Unbroken "." := .of_inert (List.all_eq_true.mp rfl)
    exact .ok (((Unbroken.of_inert hf.1).append hpoint).append (.of_inert hf.2))
  | labelled label expression => exact .ok (.of_inert hf.2)
  | aggregate label func text =>
    have hword : ∀ c ∈ func.sqlName.toList, isInert c = true := by
      cases func <;> exact List.all_eq_true.mp rfl
    have htext : grouping.Like text text :=
      .of_plain fun c hc => (isInert_iff.mp (hf.2 c hc)).1
    exact .ok (.call hword htext)
  | constant v label =>
    cases label <;> exact .ok (.mysql_literal v)
  | function label func args =>
    rw [field]
    have hargs := Likeness.agree_arguments grouping_replaces (Operand.AllObey.mono grouping_weaker hf.2)
    refine hargs.ensures.bind fun as ⟨as', has⟩ => ?_
    exact (ensures_unbroken_call func has).bind fun sql hsql => .ok hsql

theorem ensures_closes {x : Operand} (hx : x.Obeys (.spelled fun c => isInert c = true)) :
    Ensures (standard.operand x) fun sql => Place.Passes 0 .outermost sql.toList .outermost := by
  intro sql hsql
  have hagree := Likeness.agree_operand grouping_replaces (Operand.Obeys.mono grouping_weaker hx)
  obtain ⟨sql', hlike⟩ := hagree.ensures sql hsql
  exact .of_alike (hlike 0)

-- By recursion on lists in lists. Two texts between commas are two pieces at least, whatever they
-- are; so only a list of one operand can be one value.
mutual

/-- An operand is one value between commas exactly if it is an item. -/
theorem ensures_isValueText : ∀ {x : Operand}, x.Obeys (.spelled fun c => isInert c = true) →
    Ensures (standard.operand x) (IsValueText x.IsItem)
  | .value v, _ =>
    .ok ⟨fun _ => ⟨.mysql_literal v, Dialect.mysql_literal_ne_empty v⟩, fun h => absurd trivial h⟩
  | .field f, hx => fun sql hsql => by
    have hblank := (ensures_field .reference f sql hsql).eq_empty_iff
    have hwhole := ensures_unbroken_field hx.2 sql hsql
    exact ⟨fun h => ⟨hwhole, mt hblank.mp h⟩, fun h => .inl (hblank.mpr (not_not.mp h))⟩
  | .query q, hx => by
    have hquery := Likeness.agree_query grouping_replaces (Query.Obeys.mono grouping_weaker hx.2)
    rw [operand]
    exact hquery.ensures.bind fun sql ⟨_, hlike⟩ =>
      .ok ⟨fun _ => ⟨.brackets hlike, by simp⟩, fun h => absurd trivial h⟩
  | .list items, hx => by
    rw [operand]
    exact (ensures_isValueText_list hx.2).bind fun _ hsqls => .ok hsqls.2

theorem ensures_isValueText_list : ∀ {xs : List Operand},
    Operand.AllObey (.spelled fun c => isInert c = true) xs →
      Ensures (standard.operands xs) fun sqls =>
        sqls.length = xs.length ∧ IsValueText (Operand.AreItem xs) (Text.joined ", " sqls)
  | [], _ => .ok ⟨rfl, False.elim, fun _ => .inl rfl⟩
  | [x], hxs => by
    rw [operands]
    exact (ensures_isValueText hxs.1).bind fun _ hsql => .ok ⟨rfl, hsql⟩
  | x :: y :: rest, hxs => by
    rw [operands]
    refine (ensures_closes hxs.1).bind fun sql hcloses => ?_
    refine (ensures_isValueText_list hxs.2).bind fun sqls ⟨hlength, _⟩ => .ok ?_
    obtain ⟨next, others, rfl⟩ := List.exists_cons_of_length_eq_add_one hlength
    refine ⟨congrArg (· + 1) hlength, False.elim, fun _ => .inr ?_⟩
    have hfirst := List.length_pos_of_ne_nil (pieces_ne_nil "," sql)
    have hothers := List.length_pos_of_ne_nil (pieces_ne_nil "," (Text.joined ", " (next :: others)))
    rw [Text.joined_cons_cons, pieces_comma hcloses, List.length_append, List.length_modifyHead]
    omega

end

/-- The text of a value, which closes what it opens and is one value between commas exactly if the
operand is an item. -/
structure WrittenAs (v : Assignment) (sql : String) : Prop where
  text : standard.operand v.operand = .ok sql
  closes : Place.Passes 0 .outermost sql.toList .outermost
  isValue : IsValueText v.operand.IsItem sql

theorem ensures_values : ∀ {vs : List Assignment},
    Assignment.AllObey (.spelled fun c => isInert c = true) vs →
      Ensures (standard.values vs) (List.Forall₂ WrittenAs vs)
  | [], _ => .ok .nil
  | ⟨column, x⟩ :: vs, hvs => by
    have hwritten : Ensures (standard.operand x) (WrittenAs ⟨column, x⟩) := fun sql hsql =>
      ⟨hsql, ensures_closes hvs.1.2 sql hsql, ensures_isValueText hvs.1.2 sql hsql⟩
    rw [values]
    exact hwritten.bind fun _ hsql => (ensures_values hvs.2).bind fun _ hsqls =>
      .ok (.cons hsql hsqls)

theorem forall_mem_iff_of_forall₂ {α β : Type} {R : α → β → Prop} {P : β → Prop} {Q : α → Prop}
    {xs : List α} {ys : List β} (h : List.Forall₂ R xs ys) (hPQ : ∀ x y, R x y → (P y ↔ Q x)) :
    (∀ y ∈ ys, P y) ↔ ∀ x ∈ xs, Q x := by
  induction h with
  | nil => simp
  | cons hxy _ ih => rw [List.forall_mem_cons, List.forall_mem_cons, hPQ _ _ hxy, ih]

/-- The texts stand apart as they were written exactly if each operand is an item. -/
theorem pieces_values {vs : List Assignment} {written : List String} (hne : written ≠ [])
    (h : List.Forall₂ WrittenAs vs written) :
    (pieces "," (Text.joined ", " written) = behindBlanks written ∧ ∀ sql ∈ written, sql ≠ "") ↔
      ∀ v ∈ vs, v.operand.IsItem := by
  have hcloses : ∀ sql ∈ written, Place.Passes 0 .outermost sql.toList .outermost :=
    (forall_mem_iff_of_forall₂ (Q := fun _ => True) h fun _ _ hsql =>
      iff_of_true hsql.closes trivial).mpr fun _ _ => trivial
  refine ⟨fun ⟨hpieces, hshown⟩ => ?_, fun hitems => ?_⟩
  · have hone := length_pieces_of_behindBlanks hne hcloses hpieces
    refine (forall_mem_iff_of_forall₂ h fun _ _ hsql => hsql.isValue.length_pieces_iff).mp ?_
    exact fun sql hsql => ⟨hone sql hsql, hshown sql hsql⟩
  · have hwhole := (forall_mem_iff_of_forall₂ h fun _ _ hsql => hsql.isValue.unbroken_iff).mpr hitems
    have hpieces := pieces_joined hne fun sql hsql => ⟨hcloses sql hsql, (hwhole sql hsql).1⟩
    exact ⟨hpieces, fun sql hsql => (hwhole sql hsql).2⟩

/-- The statement of an insertion ends in a bracket around its values. They stand between the commas
there exactly as they were written, one for each column and none of them empty, if and only if each
operand is an item: no field without an expression, and no list of several operands or of none.
Names may have any characters but brackets, commas, quotes and backslashes. -/
theorem values_aligned_iff {q : Query} {entity : String} {vs : List Assignment} {sql : String}
    (hq : q.statement = some (.insert entity vs))
    (hnames : q.Obeys (.spelled fun c => isInert c = true)) (h : standard.query q = .ok sql) :
    ∃ tuple inner written,
      sql = "INSERT INTO " ++ entity ++ "(" ++ Text.joined ", " (vs.map Assignment.column) ++
        ") VALUES " ++ tuple ∧
      enclosed? tuple = some inner ∧
      List.Forall₂ (fun v item => standard.operand v.operand = .ok item) vs written ∧
      ((pieces "," inner = behindBlanks written ∧ ∀ item ∈ written, item ≠ "") ↔
        ∀ v ∈ vs, v.operand.IsItem) := by
  obtain ⟨statement, js, condition, prepared, os, groups, distinct, fixed, skip, take, label,
    staged⟩ := q
  obtain rfl : statement = some (.insert entity vs) := hq
  have hvs : Assignment.AllObey (.spelled fun c => isInert c = true) vs := hnames.2.1.2
  rw [query] at h
  split_ifs at h with hempty
  obtain ⟨written, hwritten, h⟩ := exists_of_bind_eq_ok h
  have htexts := ensures_values hvs written hwritten
  obtain ⟨written', hlike⟩ := (Likeness.agree_values grouping_replaces
    (Assignment.AllObey.mono grouping_weaker hvs)).ensures written hwritten
  have hne : written ≠ [] := by
    rintro rfl
    cases htexts
    exact hempty rfl
  refine ⟨"(" ++ Text.joined ", " written ++ ")", Text.joined ", " written, written, ?_,
    Likeness.enclosed?_of_like (.commas hlike), htexts.imp fun _ _ hsql => hsql.text,
    pieces_values hne htexts⟩
  obtain rfl := Except.ok.inj h
  simp only [String.append_assoc]
  rfl

end SqlWriter

/-- Adds an order. -/
def addition (values : List Assignment) : Query :=
  { (∅ : Query) with statement := some (.insert "orders" values) }

/-- An order of a customer whose name has a comma, for a rounded price. -/
def roundedOrder : Query :=
  addition [⟨"customer", .value (.string "Ann, (A)")⟩,
    ⟨"total", .field (.function "total" "round" [.field (.name "price"), .value (.integer 2)])⟩]

/-- The comma of the name and that of the call are no ends of values. -/
theorem SqlWriter.values_aligned_iff_roundedOrder :
    ∃ tuple inner, standard.query roundedOrder
        = .ok ("INSERT INTO orders(customer, total) VALUES " ++ tuple) ∧
      enclosed? tuple = some inner ∧ pieces "," inner = ["'Ann, (A)'", " ROUND(price,2)"] := by
  have hinert : ∀ {name : String}, name.toList.all isInert = true →
      Spelled (fun c => isInert c = true) name := List.all_eq_true.mp
  have hcall : (Field.function "total" "round" [.field (.name "price"), .value (.integer 2)]).Obeys
      (.spelled fun c => isInert c = true) :=
    ⟨hinert rfl, ⟨trivial, hinert rfl⟩, ⟨trivial, trivial⟩, trivial⟩
  have hnames : roundedOrder.Obeys (.spelled fun c => isInert c = true) :=
    ⟨by rintro _ ⟨⟩, ⟨hinert rfl, ⟨hinert rfl, trivial, trivial⟩, ⟨hinert rfl, trivial, hcall⟩, trivial⟩,
      trivial, trivial, trivial, trivial, trivial, trivial, trivial⟩
  have hsql : standard.query roundedOrder
      = .ok "INSERT INTO orders(customer, total) VALUES ('Ann, (A)', ROUND(price,2))" := rfl
  obtain ⟨tuple, inner, written, htext, hinner, hwritten, hiff⟩ :=
    values_aligned_iff (q := roundedOrder) rfl hnames hsql
  obtain ⟨customer, total, rfl⟩ := List.length_eq_two.mp hwritten.length_eq.symm
  rw [List.forall₂_cons, List.forall₂_cons] at hwritten
  obtain rfl : "'Ann, (A)'" = customer := Except.ok.inj hwritten.1
  obtain rfl : "ROUND(price,2)" = total := Except.ok.inj hwritten.2.1
  have hround : ¬ IsBlankCall "round" [.field (.name "price"), .value (.integer 2)] := fun h =>
    absurd h.1 (by decide)
  refine ⟨tuple, inner, hsql.trans (congrArg _ htext), hinner, (hiff.mpr ?_).1⟩
  simpa [Operand.IsItem, Field.IsBlank] using hround

/-- A list of numbers for one column is as many values as it has numbers. -/
theorem SqlWriter.query_of_addition_list :
    standard.query (addition [⟨"total", .list [.value (.integer 1), .value (.integer 2)]⟩])
      = .ok "INSERT INTO orders(total) VALUES (1, 2)" ∧
    ¬ ∀ q entity vs tuple inner, q.statement = some (.insert entity vs) →
      q.Obeys (.spelled fun c => isInert c = true) →
      standard.query q = .ok ("INSERT INTO " ++ entity ++ "(" ++
        Text.joined ", " (vs.map Assignment.column) ++ ") VALUES " ++ tuple) →
      enclosed? tuple = some inner → (pieces "," inner).length = vs.length := by
  have hinert : ∀ {name : String}, name.toList.all isInert = true →
      Spelled (fun c => isInert c = true) name := List.all_eq_true.mp
  refine ⟨rfl, fun h => ?_⟩
  have hnames : (addition [⟨"total", .list [.value (.integer 1), .value (.integer 2)]⟩]).Obeys
      (.spelled fun c => isInert c = true) :=
    ⟨by rintro _ ⟨⟩, ⟨hinert rfl, ⟨hinert rfl, trivial, ⟨trivial, trivial⟩, ⟨trivial, trivial⟩, trivial⟩,
      trivial⟩, trivial, trivial, trivial, trivial, trivial, trivial, trivial⟩
  have hlength := h _ "orders" [⟨"total", .list [.value (.integer 1), .value (.integer 2)]⟩]
    "(1, 2)" "1, 2" rfl hnames rfl rfl
  exact absurd hlength (by decide)

end QueryCompiler
