import Mathlib.Tactic.SplitIfs
import QueryCompiler.Function.Catalogue

/-!
# Runs of registrations

After any registrations a name stands for the function that was registered under it last, and for
the built-in one if there is none (`Catalogue.find?_registerAll`). Two of the renderers choose once
more by the name under which they are called. So a function can be in the catalogue and still not be
found when it is rendered: `Catalogue.found_iff` says of which functions that is so.
-/

namespace QueryCompiler

namespace Renderer

variable {name missing : String} {args : List Argument}

/-- The renderer can be called under the name. Two renderers serve several functions and know these
by their names; the others do not choose by the name. -/
def serves (renderer : Renderer) (name : String) : Bool :=
  match renderer with
  | unary => (unaryNames.lookup name).isSome
  | arithmetic => (arithmeticSigns.lookup name).isSome
  | _ => true

/-- The call can only fail for one of its arguments. -/
def FailsByArgument (name : String) {α : Type} (r : Except FunctionError α) : Prop :=
  ∀ e, r = .error e → ∃ fault, e = .invalidArgument name fault

theorem FailsByArgument.ok {α : Type} (a : α) : FailsByArgument name (.ok a) := nofun

theorem FailsByArgument.invalid {α : Type} (fault : ArgumentFault) :
    FailsByArgument name (.error (.invalidArgument name fault) : Except FunctionError α) := by
  rintro e ⟨⟩
  exact ⟨fault, rfl⟩

theorem FailsByArgument.bind {α β : Type} {r : Except FunctionError α}
    {f : α → Except FunctionError β} (h : FailsByArgument name r)
    (hf : ∀ a, FailsByArgument name (f a)) : FailsByArgument name (r >>= f) := by
  cases r with
  | ok a => exact hf a
  | error e =>
    rintro e' ⟨⟩
    exact h e rfl

theorem failsByArgument_patternText (arg : Argument) :
    FailsByArgument name (patternText name arg) := by
  unfold patternText
  split
  · exact .ok _
  · exact .invalid _

theorem failsByArgument_patternCall (before after : String) :
    FailsByArgument name (patternCall name before after args) := by
  unfold patternCall
  split
  · exact (failsByArgument_patternText _).bind fun _ => .ok _
  · exact .ok _

theorem failsByArgument_containsCall : FailsByArgument name (containsCall name args) := by
  unfold containsCall
  split
  · exact (failsByArgument_patternText _).bind fun _ => .ok _
  · exact .ok _

theorem failsByArgument_substringCall : FailsByArgument name (substringCall name args) := by
  unfold substringCall
  dsimp only
  split
  · refine .bind (.ok _) fun start => ?_
    split
    · refine .bind (.ok _) fun position => ?_
      split
      · exact .ok _
      · split
        · exact .invalid _
        · exact .ok _
    · exact .invalid _
  · exact .invalid _

theorem FailsByArgument.ne_notFound {r : Except FunctionError String} (h : FailsByArgument name r) :
    r ≠ .error (.notFound missing) := by
  intro hr
  obtain ⟨fault, hfault⟩ := h _ hr
  cases hfault

/-- A renderer that cannot be called under a name says so, whatever the arguments, and none that
can be called under it does. -/
theorem render_eq_notFound_iff (renderer : Renderer) :
    renderer.render name args = .error (.notFound missing) ↔
      missing = name ∧ renderer.serves name = false := by
  have hserved : ∀ {r : Renderer}, r.serves name = true →
      FailsByArgument name (r.render name args) →
        (r.render name args = .error (.notFound missing) ↔
          missing = name ∧ r.serves name = false) :=
    fun hserves hfails => iff_of_false hfails.ne_notFound fun h => by simp [hserves] at h
  cases renderer with
  | startsWith | endsWith => exact hserved rfl (failsByArgument_patternCall _ _)
  | contains => exact hserved rfl failsByArgument_containsCall
  | substring => exact hserved rfl failsByArgument_substringCall
  | concat | indexOf | round => exact hserved rfl (.ok _)
  | unary =>
    cases hname : unaryNames.lookup name with
    | some sqlName => simp [render, serves, hname]
    | none => simp [render, serves, hname, eq_comm]
  | arithmetic =>
    cases hname : arithmeticSigns.lookup name with
    | some sign =>
      refine hserved (by simp [serves, hname]) ?_
      simp only [render, hname]
      split
      · exact .ok _
      · exact .ok _
    | none => simp [render, serves, hname, eq_comm]

end Renderer

namespace Catalogue

variable {ρ : Type} {name missing : String} {args : List Argument}

/-- The catalogue after some registrations, one after another. -/
def registerAll (calls : List (Signature ρ)) (c : Catalogue ρ) : Catalogue ρ :=
  calls.foldl (fun c signature => c.register signature) c

theorem find?_register (signature : Signature ρ) (c : Catalogue ρ) (name : String) :
    (c.register signature).find? name =
      if signature.name = name then some signature else c.find? name := by
  split_ifs with h
  · rw [← h]
    exact find?_insert_self signature c.entries
  · exact find?_insert_of_ne h c.entries

theorem find?_registerAll (calls : List (Signature ρ)) (c : Catalogue ρ) (name : String) :
    (c.registerAll calls).find? name =
      (calls.reverse ++ c.entries).find? fun signature => signature.name = name := by
  induction calls generalizing c with
  | nil => rfl
  | cons call calls ih =>
    have hstep : (c.register call).find? name =
        (call :: c.entries).find? fun s => s.name = name := by
      rw [find?_register, List.find?_cons, find?]
      by_cases h : call.name = name <;> simp [h]
    rw [registerAll, List.foldl_cons, ← registerAll, ih, List.reverse_cons, List.append_assoc,
      List.find?_append, List.find?_append, List.singleton_append]
    exact congrArg _ hstep

/-- The function that a name stands for after some registrations: the last one that was registered
under it, or else the built-in one. -/
def standing? (calls : List Signature) (name : String) : Option Signature :=
  (calls.reverse ++ builtins).find? fun signature => signature.name = name

/-- A call of a catalogue finds nothing if there is no function of the name, or if it is called with
few enough arguments and its renderer does not serve the name. -/
theorem render_eq_notFound_iff (c : Catalogue) :
    c.render name args = .error (.notFound missing) ↔ missing = name ∧
      ∀ signature, c.find? name = some signature →
        args.length ≤ signature.maxArguments ∧ signature.renderer.serves name = false := by
  unfold render lookup
  cases c.find? name with
  | none => simpa [bind, Except.bind] using eq_comm
  | some signature =>
    simp only [bind, Except.bind, Option.some.injEq, forall_eq']
    split_ifs with hmany
    · refine iff_of_false nofun fun h => ?_
      omega
    · rw [Renders.render_renderer, Renderer.render_eq_notFound_iff]
      simp [Nat.le_of_not_lt hmany]

/-- After some registrations a name stands for the last function that was registered under it. -/
theorem find?_registerAll_ofVersion (version : String) (calls : List Signature) (name : String) :
    ((ofVersion version).registerAll calls).find? name = standing? calls name :=
  find?_registerAll calls (ofVersion version) name

/-- Every built-in function has a renderer that serves its name. -/
theorem serves_of_mem_builtins : ∀ signature ∈ builtins,
    signature.renderer.serves signature.name = true := by
  decide

/-- If every function is registered under a name that its renderer serves, then so is the one that a
name stands for. -/
theorem serves_of_standing? {calls : List Signature} {signature : Signature}
    (hcalls : ∀ call ∈ calls, call.renderer.serves call.name = true)
    (h : standing? calls name = some signature) : signature.renderer.serves name = true := by
  have hname : signature.name = name := by simpa using List.find?_some h
  rw [← hname]
  rcases List.mem_append.mp (List.mem_of_find?_eq_some h) with hcall | hbuiltin
  · exact hcalls signature (List.mem_reverse.mp hcall)
  · exact serves_of_mem_builtins signature hbuiltin

theorem contains_registerAll_eq_false_iff (version : String) (calls : List Signature)
    (name : String) :
    ((ofVersion version).registerAll calls).contains name = false ↔
      standing? calls name = none := by
  simp [contains, find?_registerAll_ofVersion]

theorem notFound_registerAll_iff (version : String) (calls : List Signature) (name : String)
    (args : List Argument) :
    (∃ missing,
      ((ofVersion version).registerAll calls).render name args = .error (.notFound missing)) ↔
      ∀ signature, standing? calls name = some signature →
        args.length ≤ signature.maxArguments ∧ signature.renderer.serves name = false := by
  simp only [render_eq_notFound_iff, find?_registerAll_ofVersion, exists_eq_left]

/-- If every function is registered under a name that its renderer serves, calls find nothing
exactly if the catalogue has no function of the name. -/
theorem notFound_iff_of_serves {calls : List Signature}
    (hcalls : ∀ call ∈ calls, call.renderer.serves call.name = true) (version name : String)
    (args : List Argument) :
    (∃ missing,
      ((ofVersion version).registerAll calls).render name args = .error (.notFound missing)) ↔
      ((ofVersion version).registerAll calls).contains name = false := by
  rw [notFound_registerAll_iff, contains_registerAll_eq_false_iff]
  cases hstanding : standing? calls name with
  | none => simp
  | some signature => simp [serves_of_standing? hcalls hstanding]

/-- After any registrations, that a call finds nothing means that the catalogue has no function of
the name exactly if the function that the name stands for, when it takes so many arguments, has a
renderer that serves the name. -/
theorem found_iff (version : String) (calls : List Signature) (name : String)
    (args : List Argument) :
    ((∃ missing,
      ((ofVersion version).registerAll calls).render name args = .error (.notFound missing)) ↔
        ((ofVersion version).registerAll calls).contains name = false) ↔
      ∀ signature, standing? calls name = some signature →
        args.length ≤ signature.maxArguments → signature.renderer.serves name = true := by
  rw [notFound_registerAll_iff, contains_registerAll_eq_false_iff]
  cases standing? calls name with
  | none => simp
  | some signature => simp

/-- The length of a text under a shorter name. -/
def shortLength : Signature := ⟨"len", .string, 1, "LENGTH(a)", .unary⟩

/-- The catalogue has the function, and a call does not find it. -/
theorem not_found_shortLength :
    ¬ ((∃ missing, ((ofVersion "0.1.0").registerAll [shortLength]).render "len" [.raw "name"] =
          .error (.notFound missing)) ↔
        ((ofVersion "0.1.0").registerAll [shortLength]).contains "len" = false) := by
  have hmissing : ((ofVersion "0.1.0").registerAll [shortLength]).render "len" [.raw "name"] =
      .error (.notFound "len") := rfl
  have hcontains : ((ofVersion "0.1.0").registerAll [shortLength]).contains "len" = true := by
    decide
  rw [hcontains]
  exact fun h => absurd (h.mp ⟨"len", hmissing⟩) (by decide)

end Catalogue

end QueryCompiler
