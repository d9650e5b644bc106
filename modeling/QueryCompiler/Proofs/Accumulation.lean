import Mathlib.Data.List.Induction
import Mathlib.Tactic.SplitIfs
import QueryCompiler.Proofs.Leaves
import QueryCompiler.Proofs.Outcome
import QueryCompiler.Query.Builder

/-!
# Filters are built from the left

What a run of steps leaves in the filter of a query depends on the steps that name a field
(`Step.whereField`, `Step.combineField`), on the predicates and on the ends of phases. From the
history alone it can be said which predicates take effect (`term?`), which of them the filter holds
(`terms`) and which were put aside (`phases`). The filter is the left fold of its terms, each with
the connective of its own call, and a connective that was staged in vain is never used
(`Query.run_leftFolded`).

A history has its latest step first.
-/

namespace QueryCompiler

/-- In a combination the first operand is no combination under the same connective, and all others
are leaves. -/
inductive Filter.LeftGrown : Filter → Prop
  | leaf {f : Filter} (h : f.IsLeaf) : LeftGrown f
  | node {connective : Connective} {first : Filter} {rest : List Filter}
      (hroot : ∀ operands, first ≠ .logical connective operands) (hfirst : LeftGrown first)
      (hrest : ∀ f ∈ rest, f.IsLeaf) : LeftGrown (.logical connective (first :: rest))

theorem Filter.LeftGrown.combine {f leaf : Filter} (hf : f.LeftGrown) (hleaf : leaf.IsLeaf)
    (connective : Connective) : (f.combine connective leaf).LeftGrown := by
  cases hf with
  | leaf h =>
    have hroot : ∀ root operands, f ≠ .logical root operands := by
      rintro root operands rfl
      exact h
    have hcombine : f.combine connective leaf = .logical connective [f, leaf] := by
      cases f with
      | logical => exact h.elim
      | compare | function => rfl
    rw [hcombine]
    exact .node (hroot connective) (.leaf h) (by simpa using hleaf)
  | @node root first rest hroot hfirst hrest =>
    simp only [Filter.combine]
    split_ifs with hsame
    · refine .node hroot hfirst ?_
      intro f hf
      rcases List.mem_append.mp hf with hf | hf
      · exact hrest f hf
      · rw [List.mem_singleton.mp hf]
        exact hleaf
    · refine .node ?_ (.node hroot hfirst hrest) (by simpa using hleaf)
      intro operands h
      exact hsame (Filter.logical.inj h).1

theorem Predicate.isLeaf_filter (predicate : Predicate) (text : String) :
    (predicate.filter text).IsLeaf := by
  cases predicate <;> trivial

namespace Query

/-! ## What a history says -/

/-- The latest step that named a field since a predicate last took effect, with its connective. -/
def latestCall? : List Step → Option (Connective × Field)
  | [] => none
  | .whereField field :: _ => some (.and, field)
  | .combineField connective field :: _ => some (connective, field)
  | .predicate _ :: before => (latestCall? before).filter fun call => call.2.filterText?.isNone
  | _ :: before => latestCall? before

/-- The connective and the text of the latest call, if a filter can name its field. -/
def standing? (history : List Step) : Option (Connective × String) := do
  let (connective, field) ← latestCall? history
  return (connective, ← field.filterText?)

/-- The leaf that a predicate adds, with the connective of its call. -/
def term? (history : List Step) (predicate : Predicate) : Option (Connective × Filter) :=
  (standing? history).map fun call => (call.1, predicate.filter call.2)

/-- The leaves since the filter was last started again or put aside, with their connectives. -/
def terms : List Step → List (Connective × Filter)
  | [] => []
  | .whereField _ :: _ => []
  | .prepare _ :: _ => []
  | .predicate predicate :: before => terms before ++ (term? before predicate).toList
  | _ :: before => terms before

/-- The terms that were put aside together, with the connective under which that was done. -/
def phases : List Step → List (Connective × List (Connective × Filter))
  | [] => []
  | .prepare connective :: before =>
    if terms before = [] then phases before else phases before ++ [(connective, terms before)]
  | _ :: before => phases before

/-- `(..((b₁ c₂ b₂) c₃ b₃)..cₙ bₙ)`; nothing if there is no truth value. -/
def leftFold : List (Connective × Bool) → Option Bool
  | [] => none
  | (_, b) :: rest => some (rest.foldl (fun value term => term.1.holds [value, term.2]) b)

/-- The left fold of some terms. -/
def termsHold? (truth : Filter → Bool) (terms : List (Connective × Filter)) : Option Bool :=
  leftFold (terms.map (Prod.map id truth))

/-- The left fold of some phases. -/
def phasesHold? (truth : Filter → Bool) (phases : List (Connective × List (Connective × Filter))) :
    Option Bool := do
  leftFold (← phases.mapM fun phase => return (phase.1, ← termsHold? truth phase.2))

/-- The leaves of a filter, if there is one. -/
def leavesOf (filter : Option Filter) : List Filter :=
  (filter.map Filter.leaves).getD []

/-- The filter and that of earlier phases are what the history says. -/
structure LeftFolded (history : List Step) (q : Query) : Prop where
  /-- A predicate adds one leaf, behind the others, -/
  effective : ∀ predicate connective leaf, term? history predicate = some (connective, leaf) →
    leavesOf (q.addPredicate predicate).filter = leavesOf q.filter ++ [leaf]
  /-- unless no field that a filter can name waits for it. -/
  ineffective : ∀ predicate, term? history predicate = none → q.addPredicate predicate = q
  leaves : leavesOf q.filter = (terms history).map Prod.snd
  truth : ∀ truth : Filter → Bool,
    q.filter.bind (Filter.truth? (some ∘ truth)) = termsHold? truth (terms history)
  preparedLeaves :
    leavesOf q.prepared = (phases history).flatMap fun phase => phase.2.map Prod.snd
  preparedTruth : ∀ truth : Filter → Bool,
    q.prepared.bind (Filter.truth? (some ∘ truth)) = phasesHold? truth (phases history)
  leftGrown : ∀ f, q.filter = some f → f.LeftGrown

/-! ## The filters of some terms and phases -/

/-- The terms combined from the left. -/
def combined : List (Connective × Filter) → Option Filter
  | [] => none
  | (_, leaf) :: rest => some (rest.foldl (fun f term => f.combine term.1 term.2) leaf)

/-- The phases put together from the left. -/
def frozen (phases : List (Connective × List (Connective × Filter))) : Option Filter :=
  phases.foldl (fun prepared phase => match prepared, combined phase.2 with
    | some prepared, some filter => some (.logical phase.1 [prepared, filter])
    | none, filter => filter
    | prepared, none => prepared) none

theorem combined_concat (ts : List (Connective × Filter)) (connective : Connective)
    (leaf : Filter) : combined (ts ++ [(connective, leaf)]) = some (match combined ts with
      | some f => f.combine connective leaf
      | none => leaf) := by
  cases ts with
  | nil => rfl
  | cons t rest => simp [combined]

theorem combined_eq_none_iff {ts : List (Connective × Filter)} : combined ts = none ↔ ts = [] := by
  cases ts with
  | nil => simp [combined]
  | cons t rest => simp [combined]

theorem frozen_concat (ps : List (Connective × List (Connective × Filter)))
    (connective : Connective) {ts : List (Connective × Filter)} {f : Filter}
    (hts : combined ts = some f) : frozen (ps ++ [(connective, ts)]) = some (match frozen ps with
      | some prepared => .logical connective [prepared, f]
      | none => f) := by
  unfold frozen
  rw [List.foldl_append, List.foldl_cons, List.foldl_nil, hts]
  split <;> simp_all

theorem leftFold_concat (bs : List (Connective × Bool)) (connective : Connective) (b : Bool) :
    leftFold (bs ++ [(connective, b)]) = some (match leftFold bs with
      | some value => connective.holds [value, b]
      | none => b) := by
  cases bs with
  | nil => rfl
  | cons t rest => simp [leftFold]

theorem leavesOf_combined : ∀ {ts : List (Connective × Filter)}, (∀ t ∈ ts, t.2.IsLeaf) →
    leavesOf (combined ts) = ts.map Prod.snd := by
  intro ts hts
  induction ts using List.reverseRecOn with
  | nil => rfl
  | append_singleton ts t ih =>
    obtain ⟨connective, leaf⟩ := t
    have hleaf : leaf.leaves = [leaf] := (hts (connective, leaf) (by simp)).leaves
    have hbefore := ih fun t ht => hts t (List.mem_append_left _ ht)
    rw [combined_concat, List.map_append, ← hbefore]
    split
    · rename_i f hf
      simp [leavesOf, hf, Filter.leaves_combine, hleaf]
    · rename_i hnone
      simp [leavesOf, hnone, hleaf]

theorem truth?_combined {ts : List (Connective × Filter)} (hts : ∀ t ∈ ts, t.2.IsLeaf)
    (truth : Filter → Bool) :
    (combined ts).bind (Filter.truth? (some ∘ truth)) = termsHold? truth ts := by
  induction ts using List.reverseRecOn with
  | nil => rfl
  | append_singleton ts t ih =>
    obtain ⟨connective, leaf⟩ := t
    have hleaf : leaf.truth? (some ∘ truth) = some (truth leaf) :=
      (hts (connective, leaf) (by simp)).truth? _
    have hbefore := ih fun t ht => hts t (List.mem_append_left _ ht)
    have hfold : termsHold? truth (ts ++ [(connective, leaf)])
        = some (match termsHold? truth ts with
          | some value => connective.holds [value, truth leaf]
          | none => truth leaf) := by
      unfold termsHold?
      rw [List.map_append]
      exact leftFold_concat _ connective (truth leaf)
    rw [combined_concat, hfold, ← hbefore]
    cases hf : combined ts with
    | none => simp [hleaf]
    | some f =>
      obtain ⟨value, hvalue⟩ := Filter.exists_truth? truth f
      simp [Filter.truth?_combine, hleaf, hvalue]

theorem leftGrown_combined {ts : List (Connective × Filter)} (hts : ∀ t ∈ ts, t.2.IsLeaf) :
    ∀ f, combined ts = some f → f.LeftGrown := by
  induction ts using List.reverseRecOn with
  | nil => simp [combined]
  | append_singleton ts t ih =>
    obtain ⟨connective, leaf⟩ := t
    have hleaf : leaf.IsLeaf := hts (connective, leaf) (by simp)
    intro f hf
    rw [combined_concat] at hf
    cases hf
    split
    · rename_i g hg
      exact (ih (fun t ht => hts t (List.mem_append_left _ ht)) g hg).combine hleaf connective
    · exact .leaf hleaf

/-- Every phase has terms, and these are leaves. -/
def Closed (ps : List (Connective × List (Connective × Filter))) : Prop :=
  ∀ phase ∈ ps, phase.2 ≠ [] ∧ ∀ t ∈ phase.2, t.2.IsLeaf

theorem leavesOf_frozen {ps : List (Connective × List (Connective × Filter))} (hps : Closed ps) :
    leavesOf (frozen ps) = ps.flatMap fun phase => phase.2.map Prod.snd := by
  induction ps using List.reverseRecOn with
  | nil => rfl
  | append_singleton ps phase ih =>
    obtain ⟨connective, ts⟩ := phase
    obtain ⟨hne, hleaves⟩ := hps (connective, ts) (by simp)
    obtain ⟨f, hf⟩ := Option.ne_none_iff_exists'.mp (mt combined_eq_none_iff.mp hne)
    have hts := leavesOf_combined hleaves
    have hbefore := ih fun phase hphase => hps phase (List.mem_append_left _ hphase)
    rw [hf] at hts
    rw [frozen_concat ps connective hf, List.flatMap_append, ← hbefore, List.flatMap_singleton, ← hts]
    cases frozen ps with
    | none => simp [leavesOf]
    | some prepared => simp [leavesOf, Filter.leaves, Filter.allLeaves]

theorem truth?_frozen {ps : List (Connective × List (Connective × Filter))} (hps : Closed ps)
    (truth : Filter → Bool) :
    ∃ bs, (ps.mapM fun phase => return (phase.1, ← termsHold? truth phase.2)) = some bs ∧
      (frozen ps).bind (Filter.truth? (some ∘ truth)) = leftFold bs := by
  induction ps using List.reverseRecOn with
  | nil => exact ⟨[], rfl, rfl⟩
  | append_singleton ps phase ih =>
    obtain ⟨connective, ts⟩ := phase
    obtain ⟨hne, hleaves⟩ := hps (connective, ts) (by simp)
    obtain ⟨f, hf⟩ := Option.ne_none_iff_exists'.mp (mt combined_eq_none_iff.mp hne)
    obtain ⟨bs, hbs, hfrozen⟩ := ih fun phase hphase => hps phase (List.mem_append_left _ hphase)
    obtain ⟨b, hb⟩ : ∃ b, termsHold? truth ts = some b := by
      cases ts with
      | nil => exact absurd rfl hne
      | cons t rest => exact ⟨_, rfl⟩
    have htruth : f.truth? (some ∘ truth) = some b := by
      rw [← hb, ← truth?_combined hleaves, hf, Option.bind_some]
    refine ⟨bs ++ [(connective, b)], ?_, ?_⟩
    · rw [List.mapM_append, hbs]
      simp [hb]
    · rw [frozen_concat ps connective hf, leftFold_concat, ← hfrozen]
      cases hprepared : frozen ps with
      | none => simp [htruth]
      | some prepared =>
        obtain ⟨value, hvalue⟩ := Filter.exists_truth? truth prepared
        simp [Filter.truth?_pair, htruth, hvalue]

/-! ## Steps -/

/-- The step bears on the filter. -/
def Step.touchesFilter : Step → Bool
  | .whereField _ | .combineField _ _ | .predicate _ | .prepare _ => true
  | _ => false

/-- The filter, that of earlier phases, and what waits for a predicate are those that the history
says. -/
structure Follows (history : List Step) (q : Query) : Prop where
  staged : q.staged.field.map (q.staged.connective.getD .and, ·) = standing? history
  filter : q.filter = combined (terms history)
  prepared : q.prepared = frozen (phases history)

theorem terms_of_untouched {step : Step} (h : step.touchesFilter = false) (history : List Step) :
    standing? (step :: history) = standing? history ∧ terms (step :: history) = terms history ∧
      phases (step :: history) = phases history := by
  cases step <;> first | exact ⟨rfl, rfl, rfl⟩ | cases h

/-- A step that does not bear on the filter leaves everything that does. -/
theorem apply_of_untouched {q q' : Query} {step : Step} (h : step.touchesFilter = false)
    (happly : q.apply step = .ok q') :
    q'.filter = q.filter ∧ q'.prepared = q.prepared ∧ q'.staged.field = q.staged.field ∧
      q'.staged.connective = q.staged.connective := by
  cases step with
  | select fields =>
    cases happly
    unfold select
    split <;> exact ⟨rfl, rfl, rfl, rfl⟩
  | selectFrom entity =>
    cases happly
    unfold selectFrom
    split <;> exact ⟨rfl, rfl, rfl, rfl⟩
  | insert entity values =>
    obtain ⟨_, -, happly⟩ := exists_of_bind_eq_ok happly
    cases happly
    exact ⟨rfl, rfl, rfl, rfl⟩
  | set values =>
    obtain ⟨_, -, happly⟩ := exists_of_bind_eq_ok happly
    unfold setValues at happly
    split at happly
    · cases happly
      exact ⟨rfl, rfl, rfl, rfl⟩
    · cases happly
  | join target =>
    simp only [apply] at happly
    split_ifs at happly
    cases happly
    exact ⟨rfl, rfl, rfl, rfl⟩
  | on condition =>
    simp only [apply] at happly
    split at happly
    · cases happly
      exact ⟨rfl, rfl, rfl, rfl⟩
    · cases happly
  | thenBy direction field =>
    cases happly
    split_ifs <;> exact ⟨rfl, rfl, rfl, rfl⟩
  | whereField | combineField | predicate | prepare => cases h
  | update | delete | orderBy | groupBy | skip | take | distinct | fixed | label =>
    cases happly
    exact ⟨rfl, rfl, rfl, rfl⟩

theorem standing?_predicate (predicate : Predicate) (history : List Step) :
    standing? (.predicate predicate :: history) = none := by
  unfold standing?
  rw [latestCall?]
  cases latestCall? history with
  | none => rfl
  | some call => cases hcall : call.2.filterText? <;> simp [hcall, Option.filter]

theorem Follows.untouched {step : Step} (h : Follows history q)
    (hstep : step.touchesFilter = false) : Follows (step :: history) (q.applyOrKeep step) := by
  obtain ⟨hstanding, hterms, hphases⟩ := terms_of_untouched hstep history
  unfold applyOrKeep
  split
  · rename_i q' happly
    obtain ⟨hfilter, hprepared, hfield, hconnective⟩ := apply_of_untouched hstep happly
    refine ⟨?_, ?_, ?_⟩
    · rw [hfield, hconnective, hstanding, h.staged]
    · rw [hfilter, hterms, h.filter]
    · rw [hprepared, hphases, h.prepared]
  · refine ⟨?_, ?_, ?_⟩
    · rw [hstanding, h.staged]
    · rw [hterms, h.filter]
    · rw [hphases, h.prepared]

theorem Follows.addPredicate_of_none (h : Follows history q) {predicate : Predicate}
    (hterm : term? history predicate = none) : q.addPredicate predicate = q := by
  rw [term?, Option.map_eq_none_iff, ← h.staged, Option.map_eq_none_iff] at hterm
  simp [addPredicate, hterm]

theorem Follows.addPredicate_of_some (h : Follows history q) {predicate : Predicate}
    {connective : Connective} {leaf : Filter}
    (hterm : term? history predicate = some (connective, leaf)) :
    (q.addPredicate predicate).filter = combined (terms history ++ [(connective, leaf)]) ∧
      (q.addPredicate predicate).prepared = q.prepared ∧
        (q.addPredicate predicate).staged.field = none := by
  rw [term?, ← h.staged, Option.map_map, Option.map_eq_some_iff] at hterm
  obtain ⟨text, hfield, hleaf⟩ := hterm
  cases hleaf
  rw [combined_concat, ← h.filter]
  cases hfilter : q.filter with
  | none => simp only [addPredicate, hfield, addFilter, hfilter, and_self]
  | some f => simp only [addPredicate, hfield, addFilter, hfilter, and_self]

theorem Follows.predicate (h : Follows history q) (predicate : Predicate) :
    Follows (.predicate predicate :: history) (q.addPredicate predicate) := by
  cases hterm : term? history predicate with
  | none =>
    have hnone := hterm
    rw [term?, Option.map_eq_none_iff] at hnone
    rw [h.addPredicate_of_none hterm]
    refine ⟨?_, ?_, h.prepared⟩
    · rw [h.staged, hnone, standing?_predicate]
    · rw [terms, hterm, h.filter]
      simp
  | some term =>
    obtain ⟨hfilter, hprepared, hfield⟩ := h.addPredicate_of_some hterm
    refine ⟨?_, ?_, ?_⟩
    · rw [hfield, standing?_predicate]
      rfl
    · rw [hfilter, terms, hterm]
      rfl
    · rw [hprepared, h.prepared]
      rfl

theorem Follows.prepare (h : Follows history q) (connective : Connective) :
    Follows (.prepare connective :: history) (q.prepare connective) := by
  have hfilter := h.filter
  unfold Query.prepare
  split
  · rename_i hnone
    rw [hnone, eq_comm, combined_eq_none_iff] at hfilter
    refine ⟨h.staged, hnone, ?_⟩
    rw [phases, if_pos hfilter, h.prepared]
  · rename_i f hf
    rw [hf, eq_comm] at hfilter
    have hne : terms history ≠ [] := by
      intro hnil
      rw [hnil] at hfilter
      cases hfilter
    refine ⟨h.staged, rfl, ?_⟩
    have hfrozen := frozen_concat (phases history) connective hfilter
    rw [← h.prepared] at hfrozen
    rw [phases, if_neg hne]
    exact hfrozen.symm

/-- A step keeps a query in line with its history. -/
theorem Follows.step (h : Follows history q) (step : Step) :
    Follows (step :: history) (q.applyOrKeep step) := by
  cases hstep : step.touchesFilter with
  | false => exact h.untouched hstep
  | true =>
    cases step with
    | whereField field =>
      refine ⟨?_, rfl, h.prepared⟩
      cases hfield : field.filterText? <;>
        simp [applyOrKeep, apply, stage, standing?, latestCall?, hfield]
    | combineField connective field =>
      refine ⟨?_, h.filter, h.prepared⟩
      cases hfield : field.filterText? <;>
        simp [applyOrKeep, apply, stage, standing?, latestCall?, hfield]
    | predicate predicate => exact h.predicate predicate
    | prepare connective => exact h.prepare connective
    | select | selectFrom | insert | update | set | delete | join | on | orderBy | thenBy | groupBy
    | skip | take | distinct | fixed | label => cases hstep

theorem Follows.run (h : Follows history q) : ∀ steps : List Step,
    Follows (steps.reverse ++ history) (q.run steps) := by
  intro steps
  induction steps generalizing history q with
  | nil => exact h
  | cons step steps ih =>
    rw [List.reverse_cons, List.append_assoc]
    exact ih (h.step step)

theorem follows_run (steps : List Step) : Follows steps.reverse ((∅ : Query).run steps) := by
  have hempty : Follows [] (∅ : Query) := ⟨rfl, rfl, rfl⟩
  have hrun := hempty.run steps
  rwa [List.append_nil] at hrun

theorem isLeaf_of_mem_terms (history : List Step) : ∀ t ∈ terms history, t.2.IsLeaf := by
  fun_induction terms history with
  | case1 | case2 | case3 => simp
  | case4 predicate before ih =>
    intro t ht
    rcases List.mem_append.mp ht with ht | ht
    · exact ih t ht
    · rw [Option.mem_toList, term?, Option.map_eq_some_iff] at ht
      obtain ⟨call, -, rfl⟩ := ht
      exact predicate.isLeaf_filter call.2
  | case5 step before _ _ _ ih => exact ih

theorem closed_phases (history : List Step) : Closed (phases history) := by
  fun_induction phases history with
  | case1 => simp [Closed]
  | case2 connective before hnil ih => exact ih
  | case3 connective before hne ih =>
    intro phase hphase
    rcases List.mem_append.mp hphase with hphase | hphase
    · exact ih phase hphase
    · rw [List.mem_singleton.mp hphase]
      exact ⟨hne, isLeaf_of_mem_terms before⟩
  | case4 step before _ ih => exact ih

theorem Follows.leftFolded (h : Follows history q) : LeftFolded history q := by
  have hterms := isLeaf_of_mem_terms history
  have hphases := closed_phases history
  refine ⟨?_, fun predicate => h.addPredicate_of_none, ?_, ?_, ?_, ?_, ?_⟩
  · intro predicate connective leaf hterm
    have hleaf : leaf.IsLeaf := by
      rw [term?, Option.map_eq_some_iff] at hterm
      obtain ⟨call, -, hcall⟩ := hterm
      cases hcall
      exact predicate.isLeaf_filter call.2
    have hall : ∀ t ∈ terms history ++ [(connective, leaf)], t.2.IsLeaf := by
      intro t ht
      rcases List.mem_append.mp ht with ht | ht
      · exact hterms t ht
      · rw [List.mem_singleton.mp ht]
        exact hleaf
    rw [(h.addPredicate_of_some hterm).1, h.filter, leavesOf_combined hall, leavesOf_combined hterms]
    simp
  · rw [h.filter, leavesOf_combined hterms]
  · intro truth
    rw [h.filter, truth?_combined hterms]
  · rw [h.prepared, leavesOf_frozen hphases]
  · intro truth
    obtain ⟨bs, hbs, hfrozen⟩ := truth?_frozen hphases truth
    rw [h.prepared, hfrozen, phasesHold?, hbs]
    rfl
  · intro f hf
    rw [h.filter] at hf
    exact leftGrown_combined hterms f hf

/-! ## Connectives that were staged in vain -/

/-- The two histories say the same of the filter and of earlier phases. -/
def SameTerms (history history' : List Step) : Prop :=
  terms history = terms history' ∧ phases history = phases history'

variable {history' : List Step}

theorem SameTerms.cons (h : SameTerms history history') {step : Step}
    (hstanding : (∃ predicate, step = .predicate predicate) →
      standing? history = standing? history') :
    SameTerms (step :: history) (step :: history') := by
  obtain ⟨hterms, hphases⟩ := h
  cases step with
  | whereField => exact ⟨rfl, hphases⟩
  | predicate predicate =>
    refine ⟨?_, hphases⟩
    rw [terms, terms, hterms, term?, term?, hstanding ⟨predicate, rfl⟩]
  | prepare connective =>
    refine ⟨rfl, ?_⟩
    rw [phases, phases, hterms, hphases]
  | combineField | select | selectFrom | insert | update | set | delete | join | on | orderBy
  | thenBy | groupBy | skip | take | distinct | fixed | label => exact ⟨hterms, hphases⟩

theorem standing?_cons_congr (h : standing? history = standing? history') (step : Step) :
    standing? (step :: history) = standing? (step :: history') := by
  cases step with
  | predicate predicate => rw [standing?_predicate, standing?_predicate]
  | whereField | combineField => rfl
  | prepare | select | selectFrom | insert | update | set | delete | join | on | orderBy | thenBy
  | groupBy | skip | take | distinct | fixed | label => exact h

/-- What is alike to begin with stays so, whatever steps follow. -/
theorem SameTerms.append (h : SameTerms history history')
    (hstanding : standing? history = standing? history') (after : List Step) :
    SameTerms (after ++ history) (after ++ history') ∧
      standing? (after ++ history) = standing? (after ++ history') := by
  induction after with
  | nil => exact ⟨h, hstanding⟩
  | cons step after ih => exact ⟨ih.1.cons fun _ => ih.2, standing?_cons_congr ih.2 step⟩

/-- Steps that are no predicates do not ask what is staged. -/
theorem SameTerms.append_of_no_predicate (h : SameTerms history history') {steps : List Step}
    (hsteps : ∀ predicate, .predicate predicate ∉ steps) :
    SameTerms (steps ++ history) (steps ++ history') := by
  induction steps with
  | nil => exact h
  | cons step steps ih =>
    refine (ih fun predicate hmem => hsteps predicate (List.mem_cons_of_mem _ hmem)).cons ?_
    rintro ⟨predicate, rfl⟩
    exact absurd List.mem_cons_self (hsteps predicate)

/-- The filters of the two queries are the same. -/
def SameFilters (q q' : Query) : Prop :=
  q.filter = q'.filter ∧ q.prepared = q'.prepared

theorem SameTerms.sameFilters {steps steps' : List Step}
    (h : SameTerms steps.reverse steps'.reverse) :
    SameFilters ((∅ : Query).run steps) ((∅ : Query).run steps') := by
  have hrun := follows_run steps
  have hrun' := follows_run steps'
  refine ⟨?_, ?_⟩
  · rw [hrun.filter, hrun'.filter, h.1]
  · rw [hrun.prepared, hrun'.prepared, h.2]

/-- The connective of a call whose field a filter cannot name makes no difference. -/
theorem sameFilters_of_unusable {field : Field} (hfield : field.filterText? = none)
    (c c' : Connective) (before after : List Step) :
    SameFilters ((∅ : Query).run (before ++ .combineField c field :: after))
      ((∅ : Query).run (before ++ .combineField c' field :: after)) := by
  have hstanding : standing? (.combineField c field :: before.reverse)
      = standing? (.combineField c' field :: before.reverse) := by
    simp [standing?, latestCall?, hfield]
  have hsame : SameTerms (.combineField c field :: before.reverse)
      (.combineField c' field :: before.reverse) := ⟨rfl, rfl⟩
  apply SameTerms.sameFilters
  simpa using (hsame.append hstanding after.reverse).1

/-- The step names a field. -/
def Step.IsCall : Step → Prop
  | .whereField _ | .combineField _ _ => True
  | _ => False

/-- The connective of a call makes no difference if another call follows before any predicate. -/
theorem sameFilters_of_overwritten {call : Step} {between : List Step} (hcall : call.IsCall)
    (hbetween : ∀ predicate, .predicate predicate ∉ between) (c c' : Connective) (field : Field)
    (before after : List Step) :
    SameFilters ((∅ : Query).run (before ++ .combineField c field :: (between ++ call :: after)))
      ((∅ : Query).run (before ++ .combineField c' field :: (between ++ call :: after))) := by
  have hsame : SameTerms (.combineField c field :: before.reverse)
      (.combineField c' field :: before.reverse) := ⟨rfl, rfl⟩
  have hreverse : ∀ predicate, .predicate predicate ∉ between.reverse := by simpa using hbetween
  have hnext : SameTerms (call :: (between.reverse ++ .combineField c field :: before.reverse))
      (call :: (between.reverse ++ .combineField c' field :: before.reverse)) := by
    refine (hsame.append_of_no_predicate hreverse).cons ?_
    rintro ⟨predicate, rfl⟩
    exact hcall.elim
  have hstanding : standing? (call :: (between.reverse ++ .combineField c field :: before.reverse))
      = standing? (call :: (between.reverse ++ .combineField c' field :: before.reverse)) := by
    cases call with
    | whereField | combineField => rfl
    | predicate | prepare | select | selectFrom | insert | update | set | delete | join | on
    | orderBy | thenBy | groupBy | skip | take | distinct | fixed | label => exact hcall.elim
  apply SameTerms.sameFilters
  simpa using (hnext.append hstanding after.reverse).1

/-- What a call of the field stages is lost: a filter cannot name the field, or the next call comes
before any predicate. -/
def StagedInVain (field : Field) (after : List Step) : Prop :=
  field.filterText? = none ∨ ∃ between call rest, after = between ++ call :: rest ∧
    call.IsCall ∧ ∀ predicate, .predicate predicate ∉ between

/-- The filters of a query are the left folds of the terms in its history, and no connective that
was staged in vain reaches them. -/
theorem run_leftFolded (steps : List Step) :
    LeftFolded steps.reverse ((∅ : Query).run steps) ∧
    ∀ before c field after, steps = before ++ .combineField c field :: after →
      StagedInVain field after → ∀ c', SameFilters ((∅ : Query).run steps)
        ((∅ : Query).run (before ++ .combineField c' field :: after)) := by
  refine ⟨(follows_run steps).leftFolded, ?_⟩
  rintro before c field after rfl (hfield | ⟨between, call, rest, rfl, hcall, hbetween⟩) c'
  · exact sameFilters_of_unusable hfield c c' before after
  · exact sameFilters_of_overwritten hcall hbetween c c' field before rest

/-- An aggregate that no filter can name, then two calls of which the second counts. -/
def openOrders (connective : Connective) : List Step :=
  [.whereField (.name "state"), .predicate (.compare .eq (.value (.string "open"))),
    .combineField .or (.aggregateOf .count "id"), .predicate (.compare .gt (.value (.integer 5)))] ++
  .combineField connective (.name "city") ::
  [.combineField .and (.name "total"), .predicate (.compare .gt (.value (.integer 10)))]

theorem run_leftFolded_openOrders :
    leavesOf ((∅ : Query).run (openOrders .or)).filter
      = [.equals "state" (.value (.string "open")), .compare "total" ⟨.gt, .value (.integer 10)⟩] ∧
    SameFilters ((∅ : Query).run (openOrders .or)) ((∅ : Query).run (openOrders .and)) := by
  obtain ⟨hfold, hvain⟩ := run_leftFolded (openOrders .or)
  refine ⟨hfold.leaves, hvain _ .or (.name "city") _ rfl ?_ .and⟩
  exact .inr ⟨[], .combineField .and (.name "total"), _, rfl, trivial, by simp⟩

end Query

end QueryCompiler
