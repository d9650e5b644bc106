import Mathlib

/-!
# Outcomes

Five statements about computations that may be refused. `Yields r p x`: the computation succeeds
exactly if `p` holds, and then with `x`. `Ensures r P`: whatever it gives has the property `P`.
`Refuses r p E`: it is refused exactly if `p` holds, and then for a cause of which `E` holds.
`Agree E R r s`: two computations both succeed, with results that `R` relates, or are both refused,
for causes that `E` relates. `SameResult r s`: they succeed with one result, or are both refused,
whatever the causes. Each of them passes through the steps of a longer computation.
-/

namespace QueryCompiler

variable {ε α β γ δ : Type}

theorem exists_of_bind_eq_ok {r : Except ε α} {f : α → Except ε β} {y : β}
    (h : r >>= f = .ok y) : ∃ x, r = .ok x ∧ f x = .ok y := by
  rcases r with e | x
  · cases h
  · exact ⟨x, rfl, h⟩

/-- The computation succeeds exactly under the condition, and then with the given result. -/
def Yields (r : Except ε α) (p : Prop) (x : α) : Prop :=
  ∀ y, r = .ok y ↔ p ∧ x = y

namespace Yields

variable {r : Except ε α} {p q : Prop} {x : α} {y : β}

theorem ok (x : α) : Yields (.ok x : Except ε α) True x := fun y => by
  rw [Except.ok.injEq, true_and]

theorem error {e : ε} (hp : ¬ p) (x : α) : Yields (.error e) p x := fun _ =>
  ⟨fun h => (by cases h), fun h => absurd h.1 hp⟩

theorem iff (h : Yields r p x) (hpq : p ↔ q) : Yields r q x := fun y => by
  rw [h y, hpq]

theorem bind {f : α → Except ε β} (h : Yields r p x) (hf : Yields (f x) q y) :
    Yields (r >>= f) (p ∧ q) y := fun z => by
  rcases r with e | a
  · have hp : ¬ p := fun hp => by cases (h x).mpr ⟨hp, rfl⟩
    exact ⟨fun hz => (by cases hz), fun hz => absurd hz.1.1 hp⟩
  · obtain ⟨hp, rfl⟩ := (h a).mp rfl
    rw [and_assoc, ← hf z]
    exact ⟨fun hz => ⟨hp, hz⟩, fun hz => hz.2⟩

theorem map (f : α → β) (h : Yields r p x) : Yields (f <$> r) p (f x) := by
  rw [map_eq_pure_bind]
  exact (h.bind (ok (f x))).iff (by rw [and_true])

theorem exists_error_iff (h : Yields r p x) : (∃ e, r = .error e) ↔ ¬ p := by
  rcases r with e | a
  · exact ⟨fun _ hp => (by cases (h x).mpr ⟨hp, rfl⟩), fun _ => ⟨e, rfl⟩⟩
  · exact ⟨fun ⟨_, he⟩ => (by cases he), fun hp => absurd ((h a).mp rfl).1 hp⟩

end Yields

/-- Whatever the computation gives has the property. -/
def Ensures (r : Except ε α) (P : α → Prop) : Prop :=
  ∀ x, r = .ok x → P x

namespace Ensures

variable {r : Except ε α} {P : α → Prop} {Q : β → Prop}

theorem ok {x : α} (h : P x) : Ensures (.ok x : Except ε α) P := fun y hy => by
  cases hy
  exact h

theorem error (e : ε) : Ensures (.error e) P := fun _ h => by
  cases h

theorem bind {f : α → Except ε β} (h : Ensures r P) (hf : ∀ x, P x → Ensures (f x) Q) :
    Ensures (r >>= f) Q := fun z hz => by
  rcases r with e | a
  · cases hz
  · exact hf a (h a rfl) z hz

theorem map {f : α → β} (h : Ensures r P) (hf : ∀ x, P x → Q (f x)) : Ensures (f <$> r) Q := by
  rw [map_eq_pure_bind]
  exact h.bind fun x hx => ok (hf x hx)

theorem mapError {ε' : Type} {f : ε → ε'} (h : Ensures r P) : Ensures (r.mapError f) P := by
  rcases r with e | x
  · exact error _
  · exact ok (h x rfl)

theorem and {P' : α → Prop} (h : Ensures r P) (h' : Ensures r P') :
    Ensures r fun x => P x ∧ P' x := fun x hx => ⟨h x hx, h' x hx⟩

theorem ite {c : Prop} [Decidable c] {s : Except ε α} (hr : c → Ensures r P)
    (hs : ¬c → Ensures s P) : Ensures (if c then r else s) P := by
  split_ifs with hc
  · exact hr hc
  · exact hs hc

theorem trivial (r : Except ε α) : Ensures r fun _ => True := fun _ _ => True.intro

end Ensures

/-- The computation is refused exactly under the condition, and then for such a cause. -/
def Refuses (r : Except ε α) (p : Prop) (E : ε → Prop) : Prop :=
  match r with
  | .ok _ => ¬ p
  | .error e => p ∧ E e

namespace Refuses

variable {r : Except ε α} {p q : Prop} {E : ε → Prop}

theorem ok {x : α} (hp : ¬ p) : Refuses (.ok x) p E := hp

theorem error {e : ε} (hp : p) (he : E e) : Refuses (.error e : Except ε α) p E := ⟨hp, he⟩

theorem iff (h : Refuses r p E) (hpq : p ↔ q) : Refuses r q E := by
  rcases r with e | x
  · exact ⟨hpq.mp h.1, h.2⟩
  · exact fun hq => h (hpq.mpr hq)

theorem bind {f : α → Except ε β} (h : Refuses r p E) (hf : ∀ x, r = .ok x → Refuses (f x) q E) :
    Refuses (r >>= f) (p ∨ q) E := by
  rcases r with e | x
  · exact ⟨.inl h.1, h.2⟩
  · refine (hf x rfl).iff ⟨.inr, ?_⟩
    rintro (hp | hq)
    · exact absurd hp h
    · exact hq

theorem mapError {ε' : Type} {E' : ε' → Prop} {f : ε → ε'} (h : Refuses r p E)
    (hf : ∀ e, E e → E' (f e)) : Refuses (r.mapError f) p E' := by
  rcases r with e | x
  · exact ⟨h.1, hf e h.2⟩
  · exact h

theorem exists_error_iff (h : Refuses r p E) : (∃ e, r = .error e) ↔ p := by
  rcases r with e | x
  · exact ⟨fun _ => h.1, fun _ => ⟨e, rfl⟩⟩
  · exact ⟨fun ⟨_, he⟩ => (by cases he), fun hp => absurd hp h⟩

theorem of_error (h : Refuses r p E) {e : ε} (he : r = .error e) : E e := by
  subst he
  exact h.2

end Refuses

/-- Two computations succeed with related results, or are refused for related causes. -/
inductive Agree (E : ε → ε → Prop) (R : α → β → Prop) : Except ε α → Except ε β → Prop
  | ok {x : α} {y : β} (h : R x y) : Agree E R (.ok x) (.ok y)
  | error {e e' : ε} (h : E e e') : Agree E R (.error e) (.error e')

namespace Agree

variable {E : ε → ε → Prop} {R : α → β → Prop} {S : γ → δ → Prop}
  {r : Except ε α} {s : Except ε β}

theorem bind {f : α → Except ε γ} {g : β → Except ε δ} (h : Agree E R r s)
    (hfg : ∀ x y, R x y → Agree E S (f x) (g y)) : Agree E S (r >>= f) (s >>= g) := by
  rcases h with h | h
  · exact hfg _ _ h
  · exact .error h

theorem mapError {ε' : Type} {E' : ε' → ε' → Prop} {f : ε → ε'} (h : Agree E R r s)
    (hf : ∀ e e', E e e' → E' (f e) (f e')) : Agree E' R (r.mapError f) (s.mapError f) := by
  rcases h with h | h
  · exact .ok h
  · exact .error (hf _ _ h)

theorem exists_ok {x : α} (h : Agree E R r s) (hr : r = .ok x) : ∃ y, s = .ok y ∧ R x y := by
  subst hr
  rcases h with h | h
  exact ⟨_, rfl, h⟩

theorem rel {x : α} {y : β} (h : Agree E R r s) (hr : r = .ok x) (hs : s = .ok y) : R x y := by
  subst hr hs
  rcases h with h | _
  exact h

theorem ensures (h : Agree E R r s) : Ensures r fun x => ∃ y, R x y := fun _ hr =>
  let ⟨y, _, hxy⟩ := h.exists_ok hr
  ⟨y, hxy⟩

theorem isOk_iff (h : Agree E R r s) : (∃ x, r = .ok x) ↔ ∃ y, s = .ok y := by
  rcases h with h | h
  · exact ⟨fun _ => ⟨_, rfl⟩, fun _ => ⟨_, rfl⟩⟩
  · exact ⟨fun ⟨_, h⟩ => (by cases h), fun ⟨_, h⟩ => (by cases h)⟩

end Agree

/-- Two computations succeed with one result, or are both refused. -/
def SameResult (r s : Except ε α) : Prop :=
  ∀ x, r = .ok x ↔ s = .ok x

namespace SameResult

variable {r s t : Except ε α}

theorem refl (r : Except ε α) : SameResult r r := fun _ => Iff.rfl

theorem symm (h : SameResult r s) : SameResult s r := fun x => (h x).symm

theorem trans (h : SameResult r s) (h' : SameResult s t) : SameResult r t := fun x =>
  (h x).trans (h' x)

theorem error (e e' : ε) : SameResult (.error e : Except ε α) (.error e') := fun _ =>
  ⟨fun h => (by cases h), fun h => by cases h⟩

theorem of_ne_ok (hr : ∀ x, r ≠ .ok x) (hs : ∀ x, s ≠ .ok x) : SameResult r s := fun x =>
  iff_of_false (hr x) (hs x)

theorem bind {f g : α → Except ε β} (h : SameResult r s)
    (hfg : ∀ x, r = .ok x → SameResult (f x) (g x)) : SameResult (r >>= f) (s >>= g) := by
  rcases r with e | x
  · rcases s with e' | y
    · exact error e e'
    · cases (h y).mpr rfl
  · rw [(h x).mp rfl]
    exact hfg x rfl

theorem map (f : α → β) (h : SameResult r s) : SameResult (f <$> r) (f <$> s) := by
  rw [map_eq_pure_bind, map_eq_pure_bind]
  exact h.bind fun _ _ => refl _

theorem ite {c : Prop} [Decidable c] {r' s' : Except ε α} (hr : c → SameResult r r')
    (hs : ¬c → SameResult s s') :
    SameResult (if c then r else s) (if c then r' else s') := by
  split_ifs with hc
  · exact hr hc
  · exact hs hc

/-- Items of different keys may come in any order where the steps for any two of them do. -/
theorem of_perm {κ σ : Type} {run : σ → List (κ × β) → Except ε γ}
    {step : σ → κ × β → Except ε σ}
    (hrun : ∀ s item items, run s (item :: items) = step s item >>= fun s => run s items)
    (hstep : ∀ s a b, a.1 ≠ b.1 →
      SameResult (step s a >>= fun s => step s b) (step s b >>= fun s => step s a))
    {items items' : List (κ × β)} (h : items.Perm items') :
    (items.map Prod.fst).Nodup → ∀ s, SameResult (run s items) (run s items') := by
  induction h with
  | nil => exact fun _ s => refl _
  | cons item _ ih =>
    intro hnodup s
    rw [List.map_cons, List.nodup_cons] at hnodup
    rw [hrun, hrun]
    exact (refl _).bind fun s _ => ih hnodup.2 s
  | swap a b items =>
    intro hnodup s
    rw [List.map_cons, List.map_cons, List.nodup_cons, List.mem_cons, not_or] at hnodup
    simp only [hrun, ← bind_assoc]
    exact (hstep s b a hnodup.1.1).bind fun s _ => refl _
  | trans hfirst _ ih ih' =>
    intro hnodup s
    exact (ih hnodup s).trans (ih' ((hfirst.map Prod.fst).nodup_iff.mp hnodup) s)

end SameResult

end QueryCompiler
