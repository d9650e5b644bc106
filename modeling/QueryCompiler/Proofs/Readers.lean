import Mathlib.Data.List.Infix
import Mathlib.Tactic.SplitIfs
import QueryCompiler.Grammar.Reader

/-!
# What readers read

`Reads p xs a ys` says that a reader takes `a` off the front of `xs` and leaves `ys`. The loops over
readers have relations of their own, with one rule for each turn of the loop and one for its end
(`ReadsMany`, `ReadsChain`, `ReadsList`).
-/

namespace QueryCompiler.Grammar

variable {τ α β : Type}

/-- The reader takes `a` off the front of `xs` and leaves `ys`. -/
def Reads (p : Reader τ α) (xs : List τ) (a : α) (ys : List τ) : Prop :=
  ∃ h, p xs = some (a, ⟨ys, h⟩)

theorem eq_none_iff {p : Reader τ α} {xs : List τ} : p xs = none ↔ ∀ a ys, ¬ Reads p xs a ys := by
  constructor
  · rintro hnone a ys ⟨_, h⟩
    rw [hnone] at h
    cases h
  · intro h
    rcases hp : p xs with _ | ⟨a, ys, hlt⟩
    · rfl
    · exact absurd ⟨hlt, hp⟩ (h a ys)

namespace Reads

variable {p : Reader τ α} {xs ys zs : List τ} {a : α} {b : β}

theorem of_eq {r : Rest xs} (h : p xs = some (a, r)) (hys : r.1 = ys) : Reads p xs a ys := by
  subst hys
  exact ⟨r.2, h⟩

theorem item {f : τ → Option α} {x : τ} (h : f x = some a) : Reads (Reader.item f) (x :: xs) a xs := by
  refine ⟨Nat.lt_succ_self _, ?_⟩
  rw [Reader.item, h]
  rfl

theorem exactly [DecidableEq τ] (x : τ) : Reads (Reader.exactly x) (x :: xs) () xs :=
  item (if_pos rfl)

theorem map (f : α → β) (h : Reads p xs a ys) : Reads (p.map f) xs (f a) ys := by
  obtain ⟨hlt, hp⟩ := h
  refine ⟨hlt, ?_⟩
  rw [Reader.map, hp]
  rfl

theorem andThen {q : α → Reader τ β} (h : Reads p xs a ys) (hq : Reads (q a) ys b zs) :
    Reads (p.andThen q) xs b zs := by
  obtain ⟨hlt, hp⟩ := h
  obtain ⟨hlt', hq⟩ := hq
  refine ⟨hlt'.trans hlt, ?_⟩
  simp only [Reader.andThen, hp, hq, Option.bind_eq_bind, Option.bind_some]
  rfl

theorem orElse_left {q : Reader τ α} (h : Reads p xs a ys) : Reads (p.orElse q) xs a ys := by
  obtain ⟨hlt, hp⟩ := h
  refine ⟨hlt, ?_⟩
  rw [Reader.orElse, hp]

theorem orElse_right {q : Reader τ α} (hp : p xs = none) (h : Reads q xs a ys) :
    Reads (p.orElse q) xs a ys := by
  obtain ⟨hlt, hq⟩ := h
  refine ⟨hlt, ?_⟩
  rw [Reader.orElse, hp, hq]

theorem eq_of_reads (h : Reads p xs a ys) {a' : α} {ys' : List τ} (h' : Reads p xs a' ys') :
    a = a' := by
  obtain ⟨_, h⟩ := h
  obtain ⟨_, h'⟩ := h'
  rw [h] at h'
  cases h'
  rfl

theorem suffix_of_item {f : τ → Option α} (h : Reads (Reader.item f) xs a ys) : ys <:+ xs := by
  obtain ⟨hlt, h⟩ := h
  cases xs with
  | nil => cases h
  | cons x xs =>
    rw [Reader.item] at h
    obtain ⟨b, -, h⟩ := Option.map_eq_some_iff.mp h
    cases h
    exact List.suffix_cons _ _

end Reads

/-- A reader makes something of a whole list if it takes that off and leaves nothing. -/
theorem all?_eq_some_iff {p : Reader τ α} {xs : List τ} {a : α} :
    p.all? xs = some a ↔ Reads p xs a [] := by
  constructor
  · intro h
    unfold Reader.all? at h
    split at h
    · rename_i hlt hp
      cases h
      exact ⟨hlt, hp⟩
    · cases h
  · rintro ⟨hlt, hp⟩
    rw [Reader.all?, hp]

theorem item_eq_none {f : τ → Option α} {xs : List τ} (h : ∀ x ∈ xs.head?, f x = none) :
    Reader.item f xs = none := by
  cases xs with
  | nil => rfl
  | cons x xs =>
    rw [Reader.item, h x rfl]
    rfl

theorem exactly_eq_none [DecidableEq τ] {x : τ} {xs : List τ} (h : x ∉ xs.head?) :
    Reader.exactly x xs = none := by
  refine item_eq_none fun y hy => if_neg ?_
  rintro rfl
  exact h hy

theorem andThen_eq_none {p : Reader τ α} {q : α → Reader τ β} {xs : List τ}
    (h : ∀ a ys, Reads p xs a ys → q a ys = none) : p.andThen q xs = none := by
  unfold Reader.andThen
  rcases hp : p xs with _ | ⟨a, ys, hlt⟩
  · rfl
  · simp only [Option.bind_eq_bind, Option.bind_some, h a ys ⟨hlt, hp⟩, Option.bind_none]

theorem andThen_eq_none_of_eq_none {p : Reader τ α} {q : α → Reader τ β} {xs : List τ}
    (h : p xs = none) : p.andThen q xs = none :=
  andThen_eq_none fun a ys ha => absurd ha (eq_none_iff.mp h a ys)

theorem map_eq_none {p : Reader τ α} {f : α → β} {xs : List τ} (h : p xs = none) :
    p.map f xs = none := by
  rw [Reader.map, h]
  rfl

theorem orElse_eq_none {p q : Reader τ α} {xs : List τ} (hp : p xs = none) (hq : q xs = none) :
    p.orElse q xs = none := by
  rw [Reader.orElse, hp, hq]

/-- What a test accepts is taken off the front up to the first item that it refuses. -/
theorem takeWhile_append {p : τ → Bool} {xs rest : List τ} (hxs : ∀ x ∈ xs, p x = true)
    (hrest : ∀ x ∈ rest.head?, p x = false) :
    (xs ++ rest).takeWhile p = xs ∧ (xs ++ rest).dropWhile p = rest := by
  rw [List.takeWhile_append_of_pos hxs, List.dropWhile_append_of_pos hxs]
  cases rest with
  | nil => simp
  | cons x rest => simp [hrest x rfl]

/-! ## Loops -/

/-- The reader takes the items off the front one after another, and then refuses. -/
inductive ReadsMany (p : Reader τ α) : List τ → List α → List τ → Prop
  | stop {xs : List τ} (h : p xs = none) : ReadsMany p xs [] xs
  | step {xs ys zs : List τ} {a : α} {as : List α} (h : Reads p xs a ys)
      (hs : ReadsMany p ys as zs) : ReadsMany p xs (a :: as) zs

theorem ReadsMany.many {p : Reader τ α} {xs ys : List τ} {as : List α} (h : ReadsMany p xs as ys) :
    ∃ hle, Reader.many p xs = (as, ⟨ys, hle⟩) := by
  induction h with
  | stop h =>
    refine ⟨le_rfl, ?_⟩
    rw [Reader.many]
    split
    · rfl
    · rename_i hsome
      rw [h] at hsome
      cases hsome
  | step h _ ih =>
    obtain ⟨hlt, h⟩ := h
    obtain ⟨hle, ih⟩ := ih
    refine ⟨hle.trans hlt.le, ?_⟩
    rw [Reader.many]
    split
    · rename_i hnone
      rw [h] at hnone
      cases hnone
    · rename_i hsome
      rw [h] at hsome
      cases hsome
      rw [ih]

theorem readsMany_many (p : Reader τ α) (xs : List τ) :
    ReadsMany p xs (Reader.many p xs).1 (Reader.many p xs).2.1 := by
  fun_induction Reader.many p xs with
  | case1 xs h => exact .stop h
  | case2 xs a ys hlt h as zs hle hmany ih =>
    rw [hmany] at ih
    exact .step ⟨hlt, h⟩ ih

section Chain

variable (operand : Reader τ α) (operator : τ → Option β) (build : α → β → α → α)

/-- What the chain makes of an operand and of what stands behind it. -/
inductive ReadsChain : α → List τ → α → List τ → Prop
  | stop {left : α} {xs : List τ} (h : ∀ x ∈ xs.head?, operator x = none) :
      ReadsChain left xs left xs
  | step {left right result : α} {x : τ} {op : β} {xs ys zs : List τ} (hop : operator x = some op)
      (h : Reads operand xs right ys) (hs : ReadsChain (build left op right) ys result zs) :
      ReadsChain left (x :: xs) result zs

variable {operand operator build}

theorem ReadsChain.chainFrom {left result : α} {xs ys : List τ}
    (h : ReadsChain operand operator build left xs result ys) :
    ∃ hle, Reader.chainFrom operand operator build left xs = (result, ⟨ys, hle⟩) := by
  induction h with
  | @stop left xs h =>
    refine ⟨le_rfl, ?_⟩
    cases xs with
    | nil => rw [Reader.chainFrom]
    | cons x xs =>
      rw [Reader.chainFrom]
      split
      · rfl
      · rename_i hsome
        rw [h x rfl] at hsome
        cases hsome
  | step hop h _ ih =>
    obtain ⟨hlt, h⟩ := h
    obtain ⟨hle, ih⟩ := ih
    refine ⟨(hle.trans hlt.le).trans (Nat.le_succ _), ?_⟩
    rw [Reader.chainFrom]
    split
    · rename_i hnone
      rw [hop] at hnone
      cases hnone
    · rename_i hsome
      rw [hop] at hsome
      cases hsome
      split
      · rename_i hnone
        rw [h] at hnone
        cases hnone
      · rename_i hsome
        rw [h] at hsome
        cases hsome
        rw [ih]

theorem Reads.chain {left result : α} {xs ys zs : List τ} (h : Reads operand xs left ys)
    (hs : ReadsChain operand operator build left ys result zs) :
    Reads (Reader.chain operand operator build) xs result zs := by
  obtain ⟨hlt, h⟩ := h
  obtain ⟨hle, hs⟩ := hs.chainFrom
  refine ⟨hle.trans_lt hlt, ?_⟩
  simp only [Reader.chain, h, Option.map_some, hs]
  rfl

end Chain

section Lists

variable [DecidableEq τ] (p : Reader τ α) (separator close : τ)

/-- One or more items with separators between them, and the closing bracket. -/
inductive ReadsList : List τ → List α → List τ → Prop
  | last {xs ys : List τ} {a : α} (h : Reads p xs a (close :: ys)) : ReadsList xs [a] ys
  | step {xs ys zs : List τ} {a : α} {as : List α} (h : Reads p xs a (separator :: ys))
      (hs : ReadsList ys as zs) : ReadsList xs (a :: as) zs

variable {p separator close} {xs ys : List τ} {as : List α}

theorem ReadsList.separated (hne : separator ≠ close) (h : ReadsList p separator close xs as ys) :
    Reads (Reader.separated p separator close) xs as ys := by
  induction h with
  | last h =>
    obtain ⟨hlt, h⟩ := h
    refine ⟨(Nat.lt_succ_self _).trans hlt, ?_⟩
    rw [Reader.separated]
    split
    · rename_i hnone
      rw [h] at hnone
      cases hnone
    · rename_i hsome
      rw [h] at hsome
      cases hsome
    · rename_i hsome
      rw [h] at hsome
      cases hsome
      exact if_pos rfl
  | step h _ ih =>
    obtain ⟨hlt, h⟩ := h
    obtain ⟨hlt', ih⟩ := ih
    refine ⟨hlt'.trans ((Nat.lt_succ_self _).trans hlt), ?_⟩
    rw [Reader.separated]
    split
    · rename_i hnone
      rw [h] at hnone
      cases hnone
    · rename_i hsome
      rw [h] at hsome
      cases hsome
    · rename_i hsome
      rw [h] at hsome
      cases hsome
      simp only [if_neg hne, if_pos, ih, Option.map_some]
      rfl

theorem Reads.enclosed_nil : Reads (Reader.enclosed p separator close) (close :: ys) [] ys := by
  refine ⟨Nat.lt_succ_self _, ?_⟩
  rw [Reader.enclosed, if_pos rfl]
  rfl

theorem ReadsList.enclosed (hne : separator ≠ close) (hclose : close ∉ xs.head?)
    (h : ReadsList p separator close xs as ys) :
    Reads (Reader.enclosed p separator close) xs as ys := by
  obtain ⟨hlt, h⟩ := h.separated hne
  cases xs with
  | nil => cases hlt
  | cons x xs =>
    have hx : x ≠ close := by
      rintro rfl
      exact hclose rfl
    exact ⟨hlt, by rw [Reader.enclosed, if_neg hx, h]⟩

/-- If items are suffixes of what they are read from, then so is what follows the list. -/
theorem suffix_of_separated (hp : ∀ {xs a ys}, Reads p xs a ys → ys <:+ xs) :
    ∀ {xs : List τ} {as : List α} {ys : List τ}, Reads (Reader.separated p separator close) xs as ys →
      close :: ys <:+ xs := by
  intro xs
  -- What an item leaves is shorter, whatever the item is: the induction is on the length.
  induction hn : xs.length using Nat.strong_induction_on generalizing xs with
  | _ n ih =>
    rintro as ys ⟨hlt, h⟩
    rw [Reader.separated] at h
    split at h
    · cases h
    · cases h
    · rename_i a y zs hlt' hitem
      have hzs : y :: zs <:+ xs := hp ⟨hlt', hitem⟩
      split_ifs at h with hy hy'
      · cases h
        rwa [← hy]
      · obtain ⟨⟨bs, rest⟩, hrest, h⟩ := Option.map_eq_some_iff.mp h
        cases h
        refine (ih zs.length ?_ rfl ⟨rest.2, hrest⟩).trans ((List.suffix_cons y zs).trans hzs)
        rw [← hn]
        exact (Nat.lt_succ_self _).trans hlt'

theorem suffix_of_enclosed (hp : ∀ {xs a ys}, Reads p xs a ys → ys <:+ xs)
    (h : Reads (Reader.enclosed p separator close) xs as ys) : close :: ys <:+ xs := by
  obtain ⟨hlt, h⟩ := h
  cases xs with
  | nil => cases hlt
  | cons x xs =>
    rw [Reader.enclosed] at h
    split_ifs at h with hx
    · cases h
      rw [hx]
    · exact suffix_of_separated hp ⟨hlt, h⟩

end Lists

end QueryCompiler.Grammar
