import QueryCompiler.Proofs.Readers

/-!
# What readers keep

Items that all have a property `Q` make something with a property `P`, if every reader on the way
sees to it. `Keeps Q P p` says this of one reader, and of what it leaves that it still consists of
such items. Each way of putting readers together has its theorem.
-/

namespace QueryCompiler.Grammar

variable {τ α β : Type} {Q : τ → Prop} {P : α → Prop} {R : β → Prop} {p : Reader τ α}

/-- Of items with the property `Q` the reader makes something with the property `P`, and it leaves
such items. -/
def Keeps (Q : τ → Prop) (P : α → Prop) (p : Reader τ α) : Prop :=
  ∀ xs a ys, Reads p xs a ys → (∀ x ∈ xs, Q x) → P a ∧ ∀ y ∈ ys, Q y

namespace Keeps

theorem none : Keeps Q P fun _ => none := by
  rintro xs a ys ⟨_, h⟩
  cases h

theorem item {f : τ → Option α} (h : ∀ x a, Q x → f x = some a → P a) :
    Keeps Q P (Reader.item f) := by
  rintro xs a ys hreads hxs
  refine ⟨?_, fun y hy => hxs y (hreads.suffix_of_item.subset hy)⟩
  obtain ⟨_, hreads⟩ := hreads
  cases xs with
  | nil => cases hreads
  | cons x xs =>
    rw [Reader.item] at hreads
    obtain ⟨b, hb, hreads⟩ := Option.map_eq_some_iff.mp hreads
    cases hreads
    exact h x a (hxs x List.mem_cons_self) hb

theorem exactly [DecidableEq τ] (x : τ) : Keeps Q (fun _ => True) (Reader.exactly x) :=
  item fun _ _ _ _ => trivial

theorem map {f : α → β} (h : Keeps Q P p) (hf : ∀ a, P a → R (f a)) : Keeps Q R (p.map f) := by
  rintro xs b ys ⟨hlt, hreads⟩ hxs
  rw [Reader.map] at hreads
  obtain ⟨⟨a, rest⟩, ha, hreads⟩ := Option.map_eq_some_iff.mp hreads
  cases hreads
  obtain ⟨hpa, hys⟩ := h xs a ys ⟨hlt, ha⟩ hxs
  exact ⟨hf a hpa, hys⟩

theorem andThen {q : α → Reader τ β} (h : Keeps Q P p) (hq : ∀ a, P a → Keeps Q R (q a)) :
    Keeps Q R (p.andThen q) := by
  rintro xs b zs ⟨_, hreads⟩ hxs
  unfold Reader.andThen at hreads
  obtain ⟨⟨a, ys, hys⟩, ha, hreads⟩ := Option.bind_eq_some_iff.mp hreads
  obtain ⟨⟨c, rest⟩, hc, hreads⟩ := Option.bind_eq_some_iff.mp hreads
  cases hreads
  obtain ⟨hpa, hrest⟩ := h xs a ys ⟨hys, ha⟩ hxs
  exact hq a hpa ys _ _ ⟨rest.2, hc⟩ hrest

theorem orElse {q : Reader τ α} (h : Keeps Q P p) (hq : Keeps Q P q) : Keeps Q P (p.orElse q) := by
  rintro xs a ys ⟨hlt, hreads⟩ hxs
  rw [Reader.orElse] at hreads
  split at hreads
  · rename_i result hresult
    cases hreads
    exact h xs a ys ⟨hlt, hresult⟩ hxs
  · exact hq xs a ys ⟨hlt, hreads⟩ hxs

theorem many (h : Keeps Q P p) {xs ys : List τ} {as : List α} (hreads : ReadsMany p xs as ys)
    (hxs : ∀ x ∈ xs, Q x) : (∀ a ∈ as, P a) ∧ ∀ y ∈ ys, Q y := by
  induction hreads with
  | stop _ => exact ⟨by simp, hxs⟩
  | @step xs ys zs a as ha _ ih =>
    obtain ⟨hpa, hys⟩ := h xs a ys ha hxs
    obtain ⟨has, hzs⟩ := ih hys
    exact ⟨by simpa using ⟨hpa, has⟩, hzs⟩

variable {operator : τ → Option β} {build : α → β → α → α}

theorem chainFrom (h : Keeps Q P p) (hbuild : ∀ a op b, P a → P b → P (build a op b)) (left : α)
    (xs : List τ) (hleft : P left) (hxs : ∀ x ∈ xs, Q x) :
    P (Reader.chainFrom p operator build left xs).1 ∧
      ∀ y ∈ (Reader.chainFrom p operator build left xs).2.1, Q y := by
  fun_induction Reader.chainFrom p operator build left xs with
  | case1 left => exact ⟨hleft, hxs⟩
  | case2 left x rest hop => exact ⟨hleft, hxs⟩
  | case3 left x rest op hop hnone => exact ⟨hleft, hxs⟩
  | case4 left x rest op hop right ys hlt hright result zs hle hresult ih =>
    obtain ⟨hpright, hys⟩ := h rest right ys ⟨hlt, hright⟩ fun y hy => hxs y (.tail _ hy)
    rw [hresult] at ih
    exact ih (hbuild left op right hleft hpright) hys

theorem chain (h : Keeps Q P p) (hbuild : ∀ a op b, P a → P b → P (build a op b)) :
    Keeps Q P (Reader.chain p operator build) := by
  rintro xs a ys ⟨_, hreads⟩ hxs
  rw [Reader.chain] at hreads
  obtain ⟨⟨left, rest⟩, hleft, hreads⟩ := Option.map_eq_some_iff.mp hreads
  cases hreads
  obtain ⟨hpleft, hrest⟩ := h xs left rest.1 ⟨rest.2, hleft⟩ hxs
  exact chainFrom h hbuild left rest.1 hpleft hrest

variable [DecidableEq τ] {separator close : τ}

theorem separated (h : Keeps Q P p) :
    Keeps Q (fun as => ∀ a ∈ as, P a) (Reader.separated p separator close) := by
  intro xs
  -- What an item leaves is shorter, whatever the item is: the induction is on the length.
  induction hn : xs.length using Nat.strong_induction_on generalizing xs with
  | _ n ih =>
    rintro as ys ⟨_, hreads⟩ hxs
    rw [Reader.separated] at hreads
    split at hreads
    · cases hreads
    · cases hreads
    · rename_i a y zs hlt hitem
      obtain ⟨hpa, hzs⟩ := h xs a (y :: zs) ⟨hlt, hitem⟩ hxs
      have hzs : ∀ z ∈ zs, Q z := fun z hz => hzs z (.tail _ hz)
      split_ifs at hreads with hclose hseparator
      · cases hreads
        exact ⟨by simpa using hpa, hzs⟩
      · obtain ⟨⟨bs, rest⟩, hrest, hreads⟩ := Option.map_eq_some_iff.mp hreads
        cases hreads
        have hshorter : zs.length < n := by
          rw [← hn]
          exact (Nat.lt_succ_self _).trans hlt
        obtain ⟨hbs, hys⟩ := ih zs.length hshorter zs rfl bs rest.1 ⟨rest.2, hrest⟩ hzs
        exact ⟨by simpa using ⟨hpa, hbs⟩, hys⟩

theorem enclosed (h : Keeps Q P p) :
    Keeps Q (fun as => ∀ a ∈ as, P a) (Reader.enclosed p separator close) := by
  rintro xs as ys ⟨hlt, hreads⟩ hxs
  cases xs with
  | nil => cases hlt
  | cons x xs =>
    rw [Reader.enclosed] at hreads
    split_ifs at hreads
    · cases hreads
      exact ⟨by simp, fun y hy => hxs y (.tail _ hy)⟩
    · exact separated h (x :: xs) as ys ⟨hlt, hreads⟩ hxs

end Keeps

end QueryCompiler.Grammar
