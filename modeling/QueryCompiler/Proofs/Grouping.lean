import QueryCompiler.Proofs.Quoting

/-!
# The text of a filter says how it is grouped

The text of a filter is empty or stands between one pair of brackets, and the text of a combination
comes apart at its connective into the texts of its operands (`SqlWriter.grouped_filter`). Brackets
and connectives inside of literals, of sub-queries and of other filters do not get in the way: there
the scan is between quotes, or a bracket is open.
-/

namespace QueryCompiler

/-- Where a scan of a text stands, and how many brackets are open there. -/
structure Place where
  mode : ScanMode
  depth : ℕ
deriving DecidableEq

namespace Place

/-- Outside of literals and of brackets. -/
def outermost : Place := ⟨.outside, 0⟩

/-- The place behind the character. Brackets between quotes do not count. -/
def next (place : Place) (c : Char) : Place where
  mode := place.mode.next c
  depth :=
    if place.mode ≠ .outside then place.depth
    else if c = '(' then place.depth + 1
    else if c = ')' then place.depth - 1
    else place.depth

theorem next_neutral (n : ℕ) {c : Char} (h : isNeutral c = true) :
    next ⟨.outside, n⟩ c = ⟨.outside, n⟩ := by
  simp only [isNeutral, Bool.and_eq_true, decide_eq_true_eq] at h
  obtain ⟨⟨⟨hquote, -⟩, hopen⟩, hclose⟩ := h
  simp [next, ScanMode.next, hquote, hopen, hclose]

end Place

/-- The text up to the bracket that closes one that is open already, and what stands behind that
bracket. -/
def upToClosing : Place → List Char → Option (List Char × List Char)
  | _, [] => none
  | place, c :: cs =>
    if place = .outermost ∧ c = ')' then some ([], cs)
    else (upToClosing (place.next c) cs).map (Prod.map (c :: ·) id)

/-- What stands between a bracket at the front of the text and the one that closes it, if that one
is the last character. -/
def enclosed? (sql : String) : Option String :=
  match sql.toList with
  | '(' :: cs => match upToClosing .outermost cs with
    | some (inner, []) => some (String.ofList inner)
    | _ => none
  | _ => none

/-- The pieces of the text between the separators that stand outside of literals and of brackets.
The first number says how many characters of a separator are left. -/
def cut (separator : List Char) : ℕ → Place → List Char → List (List Char)
  | _, _, [] => [[]]
  | skip + 1, place, c :: cs => cut separator skip (place.next c) cs
  | 0, place, c :: cs =>
    if place = .outermost ∧ separator.isPrefixOf (c :: cs) then
      [] :: cut separator (separator.length - 1) (place.next c) cs
    else (cut separator 0 (place.next c) cs).modifyHead (c :: ·)

/-- The pieces of the text between the separators that stand outside of literals and of brackets. -/
def pieces (separator sql : String) : List String :=
  (cut separator.toList 0 .outermost sql.toList).map String.ofList

/-! ## Passing over a text -/

/-- Any two bodies are alike, and outside of quotes there are no brackets but those of the
writer. -/
def Likeness.grouping : Likeness :=
  .quoting (fun c => isNeutral c = true) fun _ h => h

/-- A scan passes over the characters, and so many of the brackets that are open stay open. -/
inductive Place.Passes (k : ℕ) : Place → List Char → Place → Prop
  | nil (place : Place) : Passes k place [] place
  | cons {place place' : Place} {c : Char} {cs : List Char}
      (hopen : place.mode = .outside → k ≤ place.depth ∧ (c = ')' → k < place.depth))
      (h : Passes k (place.next c) cs place') : Passes k place (c :: cs) place'

namespace Place.Passes

variable {k : ℕ} {place place' : Place} {s : List Char}

theorem cons_of_ne {mode : ScanMode} {n : ℕ} {c : Char} (hmode : mode ≠ .outside)
    (h : Passes k (next ⟨mode, n⟩ c) s place) : Passes k ⟨mode, n⟩ (c :: s) place :=
  cons (fun hopen => absurd hopen hmode) h

theorem body {b t : List Char} {n : ℕ} (h : IsBody b)
    (ht : Passes k ⟨.inside, n⟩ t place) : Passes k ⟨.inside, n⟩ (b ++ t) place := by
  induction h with
  | nil => exact ht
  | @char c cs hquote hescape _ ih =>
    have hnext : next ⟨.inside, n⟩ c = ⟨.inside, n⟩ := by
      simp [next, ScanMode.next, hquote, hescape]
    exact cons_of_ne (by decide) (by rwa [hnext])
  | escaped c _ ih =>
    have hescaped : Passes k ⟨.escaped, n⟩ (c :: (_ ++ t)) place := cons_of_ne (by decide) ih
    exact cons_of_ne (by decide) hescaped

-- The induction is on the text. Around it `k` more brackets are open, none of which it can close,
-- since each closing bracket in it belongs to one of its own `n`.
/-- What is alike to anything closes none of the brackets that are open before it. -/
theorem of_alike {n m : ℕ} {s s' : List Char} (h : Likeness.grouping.Alike n s s' m) :
    Passes k ⟨.outside, n + k⟩ s ⟨.outside, m + k⟩ := by
  induction h with
  | nil => exact nil _
  | @char n m c s s' hc _ ih =>
    have hclose : c ≠ ')' := by
      rintro rfl
      cases hc
    have hnext := Place.next_neutral (n + k) hc
    exact cons (fun _ => ⟨Nat.le_add_left k n, fun h => absurd h hclose⟩) (by rwa [hnext])
  | @opening n m s s' _ ih =>
    have hnext : next ⟨.outside, n + k⟩ '(' = ⟨.outside, n + 1 + k⟩ := by
      rw [Nat.add_right_comm]
      rfl
    exact cons (fun _ => ⟨Nat.le_add_left k n, fun h => absurd h (by decide)⟩) (by rwa [hnext])
  | @closing n m s s' _ ih =>
    have hnext : next ⟨.outside, n + 1 + k⟩ ')' = ⟨.outside, n + k⟩ := by
      rw [Nat.add_right_comm]
      rfl
    exact cons (fun _ => ⟨Nat.le_add_left k _, fun _ => by dsimp only; omega⟩) (by rwa [hnext])
  | @literal n m b b' s s' hb _ ih =>
    refine cons (fun _ => ⟨Nat.le_add_left k n, fun h => absurd h (by decide)⟩) ?_
    exact body hb.1 (cons_of_ne (by decide) ih)

/-- The closing bracket is looked for behind what is passed. -/
theorem upToClosing_append (h : Passes 0 place s place') (t : List Char) :
    upToClosing place (s ++ t) = (upToClosing place' t).map (Prod.map (s ++ ·) id) := by
  induction h with
  | nil => exact Option.map_id'.symm
  | @cons place place' c cs hopen _ ih =>
    have hstay : ¬ (place = .outermost ∧ c = ')') := by
      rintro ⟨rfl, rfl⟩
      exact absurd ((hopen rfl).2 rfl) (Nat.lt_irrefl 0)
    rw [List.cons_append, upToClosing, if_neg hstay, ih, Option.map_map]
    rfl

/-- No separator is found where a bracket is open. -/
theorem cut_append (separator : List Char) (h : Passes 1 place s place') (t : List Char) :
    cut separator 0 place (s ++ t) = (cut separator 0 place' t).modifyHead (s ++ ·) := by
  induction h with
  | nil => exact List.modifyHead_id.symm ▸ rfl
  | @cons place place' c cs hopen _ ih =>
    have hstay : ¬ (place = .outermost ∧ separator.isPrefixOf (c :: (cs ++ t)) = true) := by
      rintro ⟨rfl, -⟩
      exact absurd (hopen rfl).1 (Nat.not_succ_le_zero 0)
    rw [List.cons_append, cut, if_neg hstay, ih, List.modifyHead_modifyHead]
    rfl

end Place.Passes

/-- A separator is passed over once it is found. -/
theorem cut_skip (separator : List Char) (t : List Char) : ∀ {w : List Char},
    (∀ c ∈ w, isNeutral c = true) →
      cut separator w.length .outermost (w ++ t) = cut separator 0 .outermost t
  | [], _ => rfl
  | c :: w, h => by
    obtain ⟨hc, hw⟩ := List.forall_mem_cons.mp h
    have hnext : Place.outermost.next c = .outermost := Place.next_neutral 0 hc
    rw [List.length_cons, List.cons_append, cut, hnext]
    exact cut_skip separator t hw

/-! ## Filters -/

namespace Likeness

theorem enclosed?_of_like {i i' : String} (h : grouping.Like i i') :
    enclosed? ("(" ++ i ++ ")") = some i := by
  have hpasses : Place.Passes 0 .outermost i.toList .outermost := .of_alike (h 0)
  have htext : ("(" ++ i ++ ")").toList = '(' :: (i.toList ++ [')']) := by simp
  have hclosing : upToClosing .outermost (i.toList ++ [')']) = some (i.toList, []) := by
    rw [hpasses.upToClosing_append]
    simp [upToClosing]
  simp only [enclosed?, htext, hclosing, String.ofList_toList]

/-- A text between brackets is no place to cut. -/
theorem cut_brackets {i i' : String} (h : grouping.Like i i') {d : Char} (hd : isNeutral d = true)
    (w t : List Char) :
    cut (d :: w) 0 .outermost (("(" ++ i ++ ")").toList ++ t)
      = (cut (d :: w) 0 .outermost t).modifyHead (("(" ++ i ++ ")").toList ++ ·) := by
  have hpasses : Place.Passes 1 ⟨.outside, 1⟩ i.toList ⟨.outside, 1⟩ := .of_alike (h 0)
  have htext : ("(" ++ i ++ ")").toList = '(' :: (i.toList ++ [')']) := by simp
  have hopening : d ≠ '(' := by
    rintro rfl
    cases hd
  have hclosing : cut (d :: w) 0 ⟨.outside, 1⟩ (')' :: t)
      = (cut (d :: w) 0 .outermost t).modifyHead (')' :: ·) := rfl
  calc cut (d :: w) 0 .outermost (("(" ++ i ++ ")").toList ++ t)
      = (cut (d :: w) 0 ⟨.outside, 1⟩ (i.toList ++ (')' :: t))).modifyHead ('(' :: ·) := by
        rw [htext, List.cons_append, List.append_assoc, cut, if_neg (by simp [hopening])]
        rfl
    _ = (cut (d :: w) 0 .outermost t).modifyHead (("(" ++ i ++ ")").toList ++ ·) := by
        rw [hpasses.cut_append, hclosing, List.modifyHead_modifyHead, List.modifyHead_modifyHead,
          htext]
        congr 1
        funext
        simp

variable {parts parts' : List String}

theorem brackets_of_ne (h : List.Forall₂ grouping.Enclosed parts parts') :
    ∀ p ∈ parts, p ≠ "" → ∃ i i', p = "(" ++ i ++ ")" ∧ grouping.Like i i' := by
  induction h with
  | nil =>
    intro p hp
    cases hp
  | cons hpart _ ih =>
    intro p hp hne
    rcases List.mem_cons.mp hp with rfl | hp
    · rcases hpart with _ | hinner
      · exact absurd rfl hne
      · exact ⟨_, _, rfl, hinner⟩
    · exact ih p hp hne

/-- Conditions between brackets come apart where they were joined. -/
theorem cut_joined {separator : String} {w : List Char} (hseparator : separator.toList = ' ' :: w)
    (hw : ∀ c ∈ w, isNeutral c = true) : ∀ {parts : List String}, parts ≠ [] →
    (∀ p ∈ parts, ∃ i i', p = "(" ++ i ++ ")" ∧ grouping.Like i i') →
      cut (' ' :: w) 0 .outermost (Text.joined separator parts).toList = parts.map String.toList
  | [], h, _ => absurd rfl h
  | [p], _, h => by
    obtain ⟨i, i', rfl, hi⟩ := h p List.mem_cons_self
    have hlast := cut_brackets hi (d := ' ') rfl w []
    rw [List.append_nil] at hlast
    refine hlast.trans ?_
    simp [cut]
  | p :: q :: rest, _, h => by
    obtain ⟨i, i', rfl, hi⟩ := h p List.mem_cons_self
    have ih := cut_joined hseparator hw (List.cons_ne_nil q rest) fun p hp =>
      h p (List.mem_cons_of_mem _ hp)
    -- The scan is outermost again behind the first part, so the separator there is found.
    have hfound : ∀ t, cut (' ' :: w) 0 .outermost (' ' :: w ++ t)
        = [] :: cut (' ' :: w) w.length .outermost (w ++ t) := fun t => by
      rw [List.cons_append, cut, if_pos ⟨rfl, by simp⟩]
      rfl
    rw [Text.joined_cons_cons, String.toList_append, String.toList_append, List.append_assoc,
      cut_brackets hi rfl, hseparator, hfound, cut_skip _ _ hw, ih]
    simp

theorem pieces_joined (connective : Connective) (hne : parts ≠ [])
    (h : ∀ p ∈ parts, ∃ i i', p = "(" ++ i ++ ")" ∧ grouping.Like i i') :
    pieces connective.separator (Text.joined connective.separator parts) = parts := by
  obtain ⟨w, hw, hneutral⟩ : ∃ w, connective.separator.toList = ' ' :: w ∧
      ∀ c ∈ w, isNeutral c = true := by
    cases connective
    · exact ⟨"AND ".toList, rfl, List.all_eq_true.mp rfl⟩
    · exact ⟨"OR ".toList, rfl, List.all_eq_true.mp rfl⟩
  rw [pieces, hw, cut_joined hw hneutral hne h, List.map_map]
  exact List.map_id'' (fun _ => String.ofList_toList) _

theorem grouping_replaces : grouping.Replaces .standard (Value.mapText id) :=
  standard_replaces _ _ fun _ => Iff.rfl

end Likeness

/-- The text of a filter is empty or stands between a bracket and the one that closes it. The text
of a combination comes apart, inside of these brackets, into the texts of the operands that say
something. Names may have any characters but brackets, quotes and backslashes. -/
theorem SqlWriter.grouped_filter {f : Filter} {sql : String}
    (hnames : f.Obeys (.spelled fun c => isNeutral c = true)) (h : standard.filter f = .ok sql) :
    (sql = "" ∨ (enclosed? sql).isSome = true) ∧
    ∀ connective operands, f = .logical connective operands →
      ∃ parts, standard.filters operands = .ok parts ∧
        (parts.filter (· ≠ "") ≠ [] →
          (enclosed? sql).map (pieces connective.separator) = some (parts.filter (· ≠ ""))) := by
  have hreplaces := Likeness.grouping_replaces
  refine ⟨?_, ?_⟩
  · obtain ⟨sql', -, henclosed⟩ := (Likeness.agree_filter hreplaces hnames).exists_ok h
    rcases henclosed with _ | hinner
    · exact .inl rfl
    · rw [Likeness.enclosed?_of_like hinner]
      exact .inr rfl
  · rintro connective operands rfl
    have hagree := Likeness.agree_filters hreplaces hnames.2
    rw [filter] at h
    rcases hparts : standard.filters operands with e | parts
    · rw [hparts] at h
      cases h
    · obtain ⟨parts', -, hrel⟩ := hagree.exists_ok hparts
      rw [hparts] at h
      obtain rfl : connective.combine parts = sql := Except.ok.inj h
      refine ⟨parts, rfl, fun hne => ?_⟩
      have hshown : ∀ p ∈ parts.filter (· ≠ ""),
          ∃ i i', p = "(" ++ i ++ ")" ∧ Likeness.grouping.Like i i' := fun p hp =>
        Likeness.brackets_of_ne hrel p (List.mem_filter.mp hp).1
          (decide_eq_true_eq.mp (List.mem_filter.mp hp).2)
      have hinner := Likeness.Like.separated connective (Likeness.forall₂_shown hrel)
      have hcombine : connective.combine parts
          = "(" ++ Text.joined connective.separator (parts.filter (· ≠ "")) ++ ")" := if_neg hne
      rw [hcombine, Likeness.enclosed?_of_like hinner, Option.map_some,
        Likeness.pieces_joined connective hne hshown]

/-- What is done, or is late and costs much. -/
def doneOrLate : Filter :=
  .disjunction [.equals "state" (.value (.string "done) OR (late")),
    .conjunction [.equals "state" (.value (.string "late")),
      .compare "total" ⟨.gt, .value (.integer 10)⟩]]

/-- The connective inside of a literal and that inside of brackets are no places to cut. -/
theorem SqlWriter.grouped_filter_doneOrLate :
    ∃ sql, standard.filter doneOrLate = .ok sql ∧ (enclosed? sql).map (pieces " OR ")
      = some ["(state='done) OR (late')", "((state='late') AND (total>10))"] := by
  have hstate : Spelled (fun c => isNeutral c = true) "state" := List.all_eq_true.mp rfl
  have htotal : Spelled (fun c => isNeutral c = true) "total" := List.all_eq_true.mp rfl
  have hnames : doneOrLate.Obeys (.spelled fun c => isNeutral c = true) :=
    ⟨trivial, ⟨hstate, trivial, trivial⟩,
      ⟨trivial, ⟨hstate, trivial, trivial⟩, ⟨htotal, trivial, trivial⟩, trivial⟩, trivial⟩
  have hsql : standard.filter doneOrLate
      = .ok "((state='done) OR (late') OR ((state='late') AND (total>10)))" := by rfl
  obtain ⟨parts, hparts, hpieces⟩ := (grouped_filter hnames hsql).2 _ _ rfl
  have htexts : parts = ["(state='done) OR (late')", "((state='late') AND (total>10))"] :=
    (Except.ok.inj (hparts.symm.trans (by rfl)))
  subst htexts
  exact ⟨_, hsql, hpieces (by simp)⟩

end QueryCompiler
