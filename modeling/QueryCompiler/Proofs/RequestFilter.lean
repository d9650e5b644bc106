import Mathlib
import QueryCompiler.Proofs.Accumulation
import QueryCompiler.Proofs.ConditionText

/-!
# The filter of a request reads from left to right

The filter of a request is a text that grows at its end. Read as a condition it is the left fold of
the terms in the history of its steps (`Options.run_leftToRight`), because at any time it is a run of
the connective that joined its last term: a term with the other connective finds the run enclosed.

A history has its latest step first.
-/

namespace QueryCompiler.OData

/-! ## What a history says -/

/-- There is no value to compare with. -/
def Predicate.isVacuous : Predicate → Bool
  | compare _ _ => false
  | isIn values | notIn values => values.isEmpty

/-- Whether a predicate holds of a subject, given which comparisons do. -/
def Predicate.holds (truth : Comparison → Bool) (subject : Subject) : Predicate → Bool
  | compare relation v => truth (.of subject relation v)
  | isIn values => values.any fun v => truth (.of subject .eq v)
  | notIn values => values.all fun v => truth (.of subject .ne v)

/-- A predicate that took effect, its subject, and the connective in front of them. -/
structure Term where
  connective : Connective
  subject : Subject
  predicate : Predicate

/-- Whether a term holds, behind the term's connective. -/
def Term.value (truth : Comparison → Bool) (t : Term) : Connective × Bool :=
  (t.connective, t.predicate.holds truth t.subject)

/-- The subject that was named last since the latest predicate. -/
def standingSubject? : List Step → Option Subject
  | [] => none
  | .subject _ subject :: _ => some subject
  | .predicate _ :: _ => none
  | _ :: before => standingSubject? before

/-- The connective that was said last since the latest predicate. -/
def standingConnective? : List Step → Option Connective
  | [] => none
  | .subject (some connective) _ :: _ => some connective
  | .predicate _ :: _ => none
  | _ :: before => standingConnective? before

/-- The term that a predicate adds. -/
def term? (history : List Step) (predicate : Predicate) : Option Term :=
  if predicate.isVacuous then none
  else (standingSubject? history).map fun subject =>
    ⟨(standingConnective? history).getD .and, subject, predicate⟩

/-- The terms from the first to the latest. -/
def terms : List Step → List Term
  | [] => []
  | .predicate predicate :: before => terms before ++ (term? before predicate).toList
  | _ :: before => terms before

/-- The filter is absent if there are no terms, and otherwise read as their left fold. -/
structure SaysFromLeft (ts : List Term) (filter : Option String) : Prop where
  absent : filter = none ↔ ts = []
  present : ∀ text, filter = some text → ∃ condition, Condition.ofText? text = some condition ∧
    ∀ truth, Query.leftFold (ts.map (Term.value truth)) = some (condition.holds truth)

/-- The subject that a step names, if any, is of a property with a name. -/
def Step.IsNamed : Step → Prop
  | .subject _ s => s.IsNamed
  | _ => True

/-! ## Runs as texts -/

/-- The text is read as an operand. -/
def IsOperandText (text : String) (condition : Condition) : Prop :=
  ∃ tokens, Spells text tokens ∧ Condition.IsOperand tokens condition

/-- The text is a run of operands with the connective in between. -/
def IsRunText (connective : Connective) (text : String) (condition : Condition) : Prop :=
  ∃ first others, (∀ piece ∈ first :: others, Condition.IsOperand piece.1 piece.2) ∧
    Spells text (Condition.runTokens connective first others) ∧
      Condition.run connective first others = condition

namespace IsRunText

variable {connective : Connective} {text : String} {condition : Condition}

theorem of_operand (h : IsOperandText text condition) (connective : Connective) :
    IsRunText connective text condition := by
  obtain ⟨tokens, hspells, hoperand⟩ := h
  refine ⟨(tokens, condition), [], by simpa using hoperand, ?_, rfl⟩
  simpa [Condition.runTokens] using hspells

theorem enclosed (h : IsRunText connective text condition) :
    IsOperandText ("(" ++ text ++ ")") condition := by
  obtain ⟨first, others, hpieces, hspells, rfl⟩ := h
  refine ⟨_, ?_, Condition.isOperand_enclosed hpieces⟩
  simpa using Spells.empty.enclosed hspells

theorem join (h : IsRunText connective text condition) {term : String} {right : Condition}
    (hterm : IsOperandText term right) :
    IsRunText connective (text ++ " " ++ connectiveWord connective ++ " " ++ term)
      (.joined connective condition right) := by
  obtain ⟨first, others, hpieces, hspells, rfl⟩ := h
  obtain ⟨tokens, hterm, hoperand⟩ := hterm
  refine ⟨first, others ++ [(tokens, right)], ?_, ?_, by simp [Condition.run]⟩
  · rw [← List.cons_append]
    exact List.forall_mem_append.mpr ⟨hpieces, List.forall_mem_singleton.mpr hoperand⟩
  · simpa [Condition.runTokens] using (hspells.blank (.connective connective)).blank hterm

theorem ofText? (h : IsRunText connective text condition) :
    Condition.ofText? text = some condition := by
  obtain ⟨first, others, hpieces, hspells, rfl⟩ := h
  refine Condition.ofText?_run hpieces ?_
  have hend : Token.ofChars? [] = some [] := by rw [Token.ofChars?]
  have hnone : Separates [] := by simp [Separates]
  simpa [hend] using hspells [] hnone

end IsRunText

/-! ## Terms as texts -/

theorem Condition.holds_run (truth : Comparison → Bool) (connective : Connective) (first : Piece)
    (others : List Piece) : (run connective first others).holds truth
      = connective.holds ((first :: others).map fun piece => piece.2.holds truth) := by
  induction others using List.reverseRecOn with
  | nil => cases connective <;> simp [run, Connective.holds]
  | append_singleton others piece ih =>
    have hrun : run connective first (others ++ [piece])
        = .joined connective (run connective first others) piece.2 := by simp [run]
    rw [hrun, holds, ih, ← Connective.holds_concat]
    simp

section Atoms

variable {subject : Subject} (hsubject : subject.IsNamed) (relation : Relation)
include hsubject

theorem isOperandText_atom (v : Value) :
    IsOperandText (atom subject.text relation v) (.comparison (.of subject relation v)) :=
  ⟨_, spells_atom hsubject relation v, Condition.isOperand_comparison _⟩

/-- A comparison of the subject as a piece of a run. -/
def atomPiece (subject : Subject) (relation : Relation) (v : Value) : Condition.Piece :=
  ((Comparison.of subject relation v).tokens, .comparison (.of subject relation v))

theorem spells_atoms (connective : Connective) : ∀ (v : Value) (vs : List Value),
    Spells (Text.joined (" " ++ connectiveWord connective ++ " ")
        ((v :: vs).map (atom subject.text relation)))
      (Condition.runTokens connective (atomPiece subject relation v)
        (vs.map (atomPiece subject relation)))
  | v, [] => by
    simpa [Text.joined, Condition.runTokens, atomPiece] using spells_atom hsubject relation v
  | v, w :: vs => by
    have hrest := spells_atoms connective w vs
    have hatom := spells_atom hsubject relation v
    rw [List.map_cons, List.map_cons, Text.joined_cons_cons, ← List.map_cons]
    simpa [Condition.runTokens, atomPiece, String.append_assoc] using
      (hatom.blank (.connective connective)).blank hrest

theorem isRunText_atoms (connective : Connective) (v : Value) (vs : List Value) :
    ∃ condition, IsRunText connective (Text.joined (" " ++ connectiveWord connective ++ " ")
        ((v :: vs).map (atom subject.text relation))) condition ∧
      ∀ truth, condition.holds truth
        = connective.holds ((v :: vs).map fun w => truth (.of subject relation w)) := by
  refine ⟨_, ⟨_, _, ?_, spells_atoms hsubject relation connective v vs, rfl⟩, fun truth => ?_⟩
  · rw [← List.map_cons]
    exact List.forall_mem_map.mpr fun w _ => Condition.isOperand_comparison _
  · rw [Condition.holds_run, ← List.map_cons, List.map_map]
    rfl

theorem exists_operand_of_expansion? {connective : Connective} {values : List Value}
    {text : String} (h : expansion? subject.text relation connective values = some text) :
    ∃ condition, IsOperandText text condition ∧ ∀ truth, condition.holds truth
      = connective.holds (values.map fun v => truth (.of subject relation v)) := by
  cases values with
  | nil => cases h
  | cons v vs =>
    rw [expansion?, if_neg (List.cons_ne_nil _ _)] at h
    cases h
    obtain ⟨condition, hrun, hholds⟩ := isRunText_atoms hsubject relation connective v vs
    exact ⟨condition, hrun.enclosed, hholds⟩

end Atoms

/-- The text of a term is an operand, with the truth value of the term. -/
theorem exists_operand_of_term? {subject : Subject} (h : subject.IsNamed) {predicate : Predicate}
    {text : String} (hterm : predicate.term? subject.text = some text) :
    ∃ condition, IsOperandText text condition ∧
      ∀ truth, condition.holds truth = predicate.holds truth subject := by
  cases predicate with
  | compare relation v =>
    cases hterm
    exact ⟨_, isOperandText_atom h relation v, fun _ => rfl⟩
  | isIn values =>
    obtain ⟨condition, hoperand, hholds⟩ := exists_operand_of_expansion? h .eq hterm
    refine ⟨condition, hoperand, fun truth => ?_⟩
    simp [hholds, Connective.holds, Predicate.holds, List.any_map]
  | notIn values =>
    obtain ⟨condition, hoperand, hholds⟩ := exists_operand_of_expansion? h .ne hterm
    refine ⟨condition, hoperand, fun truth => ?_⟩
    simp [hholds, Connective.holds, Predicate.holds, List.all_map]

theorem term?_eq_none_iff (text : String) (predicate : Predicate) :
    predicate.term? text = none ↔ predicate.isVacuous = true := by
  cases predicate <;> simp [Predicate.term?, Predicate.isVacuous, expansion?]

/-! ## Steps and runs -/

/-- The filter is a run of the connective that joined its last term, with the truth value of the
terms. Before any term was joined it is a run of either. -/
structure IsRunOf (ts : List Term) (filter : Option String) (last : Option Connective) : Prop where
  absent : filter = none ↔ ts = []
  present : ∀ text, filter = some text → ∃ condition,
    (∀ connective, last.getD connective = connective → IsRunText connective text condition) ∧
    ∀ truth, Query.leftFold (ts.map (Term.value truth)) = some (condition.holds truth)

theorem getD_last (last : Option Connective) : last.getD (last.getD .and) = last.getD .and := by
  cases last <;> rfl

theorem IsRunOf.saysFromLeft {ts : List Term} {filter : Option String} {last : Option Connective}
    (h : IsRunOf ts filter last) : SaysFromLeft ts filter := by
  refine ⟨h.absent, fun text htext => ?_⟩
  obtain ⟨condition, hrun, hholds⟩ := h.present text htext
  exact ⟨condition, (hrun _ (getD_last last)).ofText?, hholds⟩

/-- A term with the connective of the run goes on with it, and any other finds it enclosed. -/
theorem IsRunOf.addTerm {ts : List Term} {o : Options} (h : IsRunOf ts o.filter o.staged.last)
    {t : Term} {text : String} {right : Condition} (hoperand : IsOperandText text right)
    (hright : ∀ truth, right.holds truth = t.predicate.holds truth t.subject) :
    IsRunOf (ts ++ [t]) (o.addTerm t.connective text).filter
      (o.addTerm t.connective text).staged.last := by
  have hfold : ∀ truth, Query.leftFold ((ts ++ [t]).map (Term.value truth))
      = Query.leftFold (ts.map (Term.value truth) ++ [(t.connective, right.holds truth)]) :=
    fun truth => by
      rw [List.map_append, hright]
      rfl
  unfold Options.addTerm
  split
  · rename_i hfilter
    refine ⟨by simp, ?_⟩
    rintro _ ⟨rfl⟩
    refine ⟨right, fun connective _ => .of_operand hoperand connective, fun truth => ?_⟩
    rw [hfold, h.absent.mp hfilter]
    rfl
  · rename_i filter hfilter
    refine ⟨by simp, ?_⟩
    rintro _ ⟨rfl⟩
    obtain ⟨condition, hrun, hholds⟩ := h.present filter hfilter
    refine ⟨.joined t.connective condition right, ?_, fun truth => ?_⟩
    · intro connective hconnective
      have hlast : t.connective = connective := hconnective
      subst hlast
      split_ifs with hsame
      · exact (hrun _ hsame).join hoperand
      · exact (IsRunText.of_operand (hrun _ (getD_last _)).enclosed _).join hoperand
    · rw [hfold, Query.leftFold_concat, hholds]
      rfl

theorem staged_addTerm (o : Options) (connective : Connective) (term : String) :
    (o.addTerm connective term).staged.subject = o.staged.subject ∧
      (o.addTerm connective term).staged.connective = o.staged.connective := by
  unfold Options.addTerm
  split <;> exact ⟨rfl, rfl⟩

/-- The options are in line with the history of their steps. -/
structure Follows (history : List Step) (o : Options) : Prop where
  subject : o.staged.subject = (standingSubject? history).map Subject.text
  connective : o.staged.connective = standingConnective? history
  isRun : IsRunOf (terms history) o.filter o.staged.last

namespace Follows

variable {history : List Step} {o : Options}

theorem text_eq_none (h : Follows history o) {predicate : Predicate}
    (hterm : term? history predicate = none) :
    (o.staged.subject.bind fun s => predicate.term? s) = none := by
  rw [term?, ite_eq_left_iff] at hterm
  rw [h.subject]
  cases hsubject : standingSubject? history with
  | none => rfl
  | some subject =>
    rw [hsubject] at hterm
    exact (term?_eq_none_iff _ _).mpr (by simpa using hterm)

theorem exists_text (h : Follows history o) {predicate : Predicate} {t : Term}
    (hterm : term? history predicate = some t) : ∃ text,
    (o.staged.subject.bind fun s => predicate.term? s) = some text ∧
      t.predicate.term? t.subject.text = some text ∧ standingSubject? history = some t.subject ∧
        o.staged.connective.getD .and = t.connective := by
  rw [term?] at hterm
  split_ifs at hterm with hvacuous
  obtain ⟨subject, hsubject, rfl⟩ := Option.map_eq_some_iff.mp hterm
  obtain ⟨text, htext⟩ := Option.ne_none_iff_exists'.mp
    (mt (term?_eq_none_iff subject.text predicate).mp hvacuous)
  exact ⟨text, by rw [h.subject, hsubject]; exact htext, htext, hsubject, by rw [h.connective]⟩

theorem predicate (h : Follows history o) (hnamed : ∀ s ∈ standingSubject? history, s.IsNamed)
    (predicate : Predicate) :
    Follows (.predicate predicate :: history) (o.addPredicate predicate) := by
  cases hterm : term? history predicate with
  | none =>
    rw [Options.addPredicate, h.text_eq_none hterm]
    refine ⟨rfl, rfl, ?_⟩
    rw [terms, hterm, Option.toList_none, List.append_nil]
    exact h.isRun
  | some t =>
    obtain ⟨text, hbind, htext, hsubject, hconnective⟩ := h.exists_text hterm
    obtain ⟨right, hoperand, hright⟩ := exists_operand_of_term? (hnamed _ hsubject) htext
    rw [Options.addPredicate, hbind]
    dsimp only
    rw [hconnective]
    refine ⟨?_, ?_, ?_⟩
    · exact (staged_addTerm _ _ _).1
    · exact (staged_addTerm _ _ _).2
    · rw [terms, hterm, Option.toList_some]
      refine IsRunOf.addTerm ?_ hoperand hright
      exact h.isRun

theorem step (h : Follows history o) (hnamed : ∀ s ∈ standingSubject? history, s.IsNamed)
    (step : Step) : Follows (step :: history) (o.apply step) := by
  cases step with
  | predicate predicate => exact h.predicate hnamed predicate
  | subject connective subject =>
    cases connective with
    | none => exact ⟨rfl, h.connective, h.isRun⟩
    | some connective => exact ⟨rfl, rfl, h.isRun⟩
  | model | select | top | skip | orderBy | thenBy => exact ⟨h.subject, h.connective, h.isRun⟩

theorem isNamed_standingSubject {history : List Step} (h : ∀ step ∈ history, step.IsNamed) :
    ∀ s ∈ standingSubject? history, s.IsNamed := by
  fun_induction standingSubject? history with
  | case1 | case3 => simp
  | case2 connective subject before =>
    rintro s ⟨rfl⟩
    exact h _ List.mem_cons_self
  | case4 step before _ _ ih => exact ih (fun step hstep => h step (List.mem_cons_of_mem _ hstep))

theorem run : ∀ {steps history : List Step} {o : Options}, Follows history o →
    (∀ step ∈ history, step.IsNamed) → (∀ step ∈ steps, step.IsNamed) →
      Follows (steps.reverse ++ history) (o.run steps)
  | [], _, _, h, _, _ => h
  | step :: steps, history, o, h, hhistory, hsteps => by
    obtain ⟨hstep, hsteps⟩ := List.forall_mem_cons.mp hsteps
    rw [List.reverse_cons, List.append_assoc]
    exact run (h.step (isNamed_standingSubject hhistory) step)
      (List.forall_mem_cons.mpr ⟨hstep, hhistory⟩) hsteps

end Follows

/-- The filter that steps leave behind says what their terms say from left to right. -/
theorem Options.run_leftToRight (steps : List Step) (h : ∀ step ∈ steps, step.IsNamed) :
    SaysFromLeft (terms steps.reverse) (run {} steps).filter := by
  have hstart : IsRunOf [] none none := ⟨by simp, by simp⟩
  have hempty : Follows [] {} := ⟨rfl, rfl, hstart⟩
  have hrun := hempty.run (by simp) h
  rw [List.append_nil] at hrun
  exact hrun.isRun.saysFromLeft

/-- A text with a quote, parentheses and a connective in it, then two predicates without effect, and a
change of the connective. -/
def teaOrCheap : List Step :=
  [.subject none (.ofProperty .toLower "Name"),
    .predicate (.compare .eq (.string "it's (green) tea or")),
    .subject (some .or) (.property "Price"), .predicate (.isIn []),
    .predicate (.compare .gt (.integer 1)),
    .subject (some .or) (.property "Price"), .predicate (.isIn [.integer 3, .null]),
    .subject none (.property "Stock"), .predicate (.compare .ge (.bool true))]

theorem Options.run_leftToRight_teaOrCheap : (∀ step ∈ teaOrCheap, step.IsNamed) ∧
    ∃ condition, Condition.ofText? ("(tolower(Name) eq 'it''s (green) tea or' or " ++
        "(Price eq 3 or Price eq null)) and Stock ge true") = some condition ∧
      ∀ truth, condition.holds truth =
        ((truth ⟨.call "tolower" [.bare "Name"], .eq, .quoted "it's (green) tea or"⟩ ||
          (truth ⟨.property "Price", .eq, .bare "3"⟩ || truth ⟨.property "Price", .eq, .bare "null"⟩))
            && truth ⟨.property "Stock", .ge, .bare "true"⟩) := by
  have hnamed : ∀ step ∈ teaOrCheap, step.IsNamed := by
    have hnames : IsName "Name" ∧ IsName "Price" ∧ IsName "Stock" := by
      unfold IsName
      decide
    simpa [teaOrCheap, Step.IsNamed, Subject.IsNamed] using hnames
  have htext : (run {} teaOrCheap).filter = some ("(tolower(Name) eq 'it''s (green) tea or' or " ++
      "(Price eq 3 or Price eq null)) and Stock ge true") := rfl
  have hterms : terms teaOrCheap.reverse =
      [⟨.and, .ofProperty .toLower "Name", .compare .eq (.string "it's (green) tea or")⟩,
        ⟨.or, .property "Price", .isIn [.integer 3, .null]⟩,
        ⟨.and, .property "Stock", .compare .ge (.bool true)⟩] := rfl
  have hthree : literal (.integer 3) = "3" := rfl
  have hnull : literal .null = "null" := rfl
  have htrue : literal (.bool true) = "true" := rfl
  obtain ⟨condition, hread, hholds⟩ := (run_leftToRight teaOrCheap hnamed).present _ htext
  refine ⟨hnamed, condition, hread, fun truth => Option.some.inj ((hholds truth).symm.trans ?_)⟩
  rw [hterms]
  simp [Query.leftFold, Term.value, Predicate.holds, Connective.holds, Comparison.of, Subject.left,
    Literal.ofValue, hthree, hnull, htrue, PropertyFunction.name]

end QueryCompiler.OData
