import Mathlib.Data.List.Nodup
import Mathlib.Data.String.Basic
import QueryCompiler.Proofs.Registrations

/-!
# The listing of a catalogue

A catalogue has one function of each name, and registering keeps it so (`Catalogue.Distinct`). So
what it lists is settled by what is found in it (`Catalogue.signatures_eq_of_find?`): neither the
order in which it holds its functions nor that in which functions of different names were
registered can be told from the listing (`Catalogue.signatures_registerAll`). What renders the
functions does not matter here.
-/

namespace QueryCompiler

namespace Catalogue

variable {ρ : Type} {c d : Catalogue ρ} {s : Signature ρ} {name : String}

/-- No two functions of the catalogue have one name. -/
def Distinct (c : Catalogue ρ) : Prop :=
  (c.entries.map fun s => s.name).Nodup

theorem mem_names_insert {entries : List (Signature ρ)} :
    name ∈ (insert s entries).map (fun s => s.name) ↔
      name = s.name ∨ name ∈ entries.map fun s => s.name := by
  induction entries with
  | nil => simp [insert]
  | cons other rest ih =>
    by_cases h : other.name = s.name
    · simp [insert, h]
    · simp only [insert, if_neg h, List.map_cons, List.mem_cons, ih]
      exact or_left_comm

theorem nodup_names_insert {entries : List (Signature ρ)}
    (h : (entries.map fun s => s.name).Nodup) : ((insert s entries).map fun s => s.name).Nodup := by
  induction entries with
  | nil => simp [insert]
  | cons other rest ih =>
    obtain ⟨hother, hrest⟩ := List.nodup_cons.mp h
    by_cases hname : other.name = s.name
    · rw [insert, if_pos hname, List.map_cons, ← hname]
      exact h
    · rw [insert, if_neg hname, List.map_cons]
      refine List.nodup_cons.mpr ⟨fun hmem => ?_, ih hrest⟩
      exact (mem_names_insert.mp hmem).elim hname hother

theorem Distinct.register (h : c.Distinct) (s : Signature ρ) : (c.register s).Distinct :=
  nodup_names_insert h

theorem Distinct.registerAll (h : c.Distinct) (calls : List (Signature ρ)) :
    (c.registerAll calls).Distinct := by
  induction calls generalizing c with
  | nil => exact h
  | cons call calls ih => exact ih (h.register call)

theorem distinct_ofVersionWith (form : Renderer → ρ) (version : String) :
    (ofVersionWith form version).Distinct := by
  have hnames : (builtins.map fun s => s.name).Nodup := by decide
  rw [Distinct, ofVersionWith, List.map_map]
  exact hnames

theorem Distinct.find?_eq_some_iff (h : c.Distinct) :
    c.find? name = some s ↔ s ∈ c.entries ∧ s.name = name := by
  refine ⟨fun hfind => ⟨List.mem_of_find?_eq_some hfind, by simpa using List.find?_some hfind⟩, ?_⟩
  rintro ⟨hmem, rfl⟩
  cases hfind : c.find? s.name with
  | none => exact absurd (decide_eq_true rfl) (List.find?_eq_none.mp hfind s hmem)
  | some found =>
    have hname : found.name = s.name := by simpa using List.find?_some hfind
    rw [List.inj_on_of_nodup_map h (List.mem_of_find?_eq_some hfind) hmem hname]

theorem mem_signatures : s ∈ c.signatures ↔ s ∈ c.entries :=
  List.mem_mergeSort

theorem signatures_perm (c : Catalogue ρ) : c.signatures.Perm c.entries :=
  List.mergeSort_perm _ _

theorem Distinct.ascending (h : c.Distinct) :
    c.signatures.Pairwise fun s t => s.name < t.name := by
  have hsorted : c.signatures.Pairwise fun s t => s.name ≤ t.name := by
    unfold signatures
    refine (List.pairwise_mergeSort ?_ ?_ c.entries).imp of_decide_eq_true
    · intro a b d hab hbd
      exact decide_eq_true (le_trans (of_decide_eq_true hab) (of_decide_eq_true hbd))
    · intro a b
      simpa using le_total a.name b.name
  -- Sorting keeps neighbours of one name together, but there are none.
  have hnames : c.signatures.Pairwise fun s t => s.name ≠ t.name :=
    List.pairwise_map.mp (((signatures_perm c).map _).nodup_iff.mpr h)
  exact (hsorted.and hnames).imp fun hst => lt_of_le_of_ne hst.1 hst.2

/-- Catalogues of the same functions list them alike. -/
theorem signatures_eq_of_mem_iff (hc : c.Distinct) (hd : d.Distinct)
    (h : ∀ s, s ∈ c.entries ↔ s ∈ d.entries) : c.signatures = d.signatures := by
  have hperm : c.entries.Perm d.entries :=
    (List.perm_ext_iff_of_nodup (List.Nodup.of_map _ hc) (List.Nodup.of_map _ hd)).mpr h
  refine List.Perm.eq_of_pairwise (fun s t _ _ hst hts => absurd hst (lt_asymm hts)) hc.ascending
    hd.ascending ?_
  exact (signatures_perm c).trans (hperm.trans (signatures_perm d).symm)

/-- Catalogues in which the same is found under every name list it alike. -/
theorem signatures_eq_of_find? (hc : c.Distinct) (hd : d.Distinct)
    (h : ∀ name, c.find? name = d.find? name) : c.signatures = d.signatures := by
  refine signatures_eq_of_mem_iff hc hd fun s => ?_
  have hfound := h s.name
  rw [← and_iff_left (a := s ∈ c.entries) rfl, ← hc.find?_eq_some_iff, hfound,
    hd.find?_eq_some_iff, and_iff_left rfl]

/-- The function that was registered last under a name. -/
def latest? (calls : List (Signature ρ)) (name : String) : Option (Signature ρ) :=
  (calls.filter fun s => s.name = name).getLast?

theorem find?_registerAll_eq_latest? (calls : List (Signature ρ)) (c : Catalogue ρ)
    (name : String) :
    (c.registerAll calls).find? name = (latest? calls name).or (c.find? name) := by
  rw [find?_registerAll, List.find?_append, latest?, List.getLast?_filter]
  rfl

/-- The catalogue lists what the registrations have made of a new one. -/
structure Lists (c new : Catalogue ρ) (calls : List (Signature ρ)) : Prop where
  /-- The functions are listed in the order of their names, each name once. -/
  ascending : c.signatures.Pairwise fun s t => s.name < t.name
  /-- The names are those that the catalogue contains. -/
  contains_iff : ∀ name, c.contains name = true ↔ ∃ s ∈ c.signatures, s.name = name
  /-- The function that is listed under a name is the one that is looked up, -/
  lookup : ∀ s ∈ c.signatures, c.lookup s.name = .ok s
  /-- and it was registered last under the name, or else the new catalogue has it. -/
  latest : ∀ s ∈ c.signatures, (latest? calls s.name).or (new.find? s.name) = some s

theorem lists_registerAll {new : Catalogue ρ} (h : new.Distinct) (calls : List (Signature ρ)) :
    (new.registerAll calls).Lists new calls where
  ascending := (h.registerAll calls).ascending
  contains_iff name := by
    simp only [contains, Option.isSome_iff_exists, (h.registerAll calls).find?_eq_some_iff,
      mem_signatures]
  lookup s hs := by
    have hfind := (h.registerAll calls).find?_eq_some_iff.mpr ⟨mem_signatures.mp hs, rfl⟩
    rw [Catalogue.lookup, hfind]
  latest s hs := by
    rw [← find?_registerAll_eq_latest?]
    exact (h.registerAll calls).find?_eq_some_iff.mpr ⟨mem_signatures.mp hs, rfl⟩

/-- Whatever functions are registered in a new catalogue, its listing is in the order of the names,
and has for each name that the catalogue contains the function that was registered last. Other calls
that register the same under each single name, one after another, make the same listing, and so does
any order in which the catalogue may hold its functions. -/
theorem signatures_registerAll (form : Renderer → ρ) (version : String)
    (calls : List (Signature ρ)) :
    ((ofVersionWith form version).registerAll calls).Lists (ofVersionWith form version) calls ∧
    (∀ calls' : List (Signature ρ),
      (∀ name, (calls'.filter fun s => s.name = name) = calls.filter fun s => s.name = name) →
        ((ofVersionWith form version).registerAll calls').signatures
          = ((ofVersionWith form version).registerAll calls).signatures) ∧
    ∀ c : Catalogue ρ, c.entries.Perm ((ofVersionWith form version).registerAll calls).entries →
      c.signatures = ((ofVersionWith form version).registerAll calls).signatures := by
  have hnew := distinct_ofVersionWith form version
  refine ⟨lists_registerAll hnew calls, fun calls' hcalls => ?_, fun c hperm => ?_⟩
  · refine signatures_eq_of_find? (hnew.registerAll _) (hnew.registerAll _) fun name => ?_
    rw [find?_registerAll_eq_latest?, find?_registerAll_eq_latest?, latest?, latest?, hcalls]
  · refine signatures_eq_of_mem_iff ?_ (hnew.registerAll calls) fun s => hperm.mem_iff
    exact (hperm.map _).nodup_iff.mpr (hnew.registerAll calls)

/-- The length of a text in characters, in the place of that in bytes. -/
def characters : Signature CustomRenderer :=
  ⟨"length", .string, 1, "CHAR_LENGTH(a)",
    fun _ args => .ok ("CHAR_LENGTH(" ++ Argument.sqlAt args 0 ++ ")")⟩

/-- A text from its end to its beginning. -/
def backwards : Signature CustomRenderer :=
  ⟨"reverse", .string, 1, "REVERSE(a)",
    fun _ args => .ok ("REVERSE(" ++ Argument.sqlAt args 0 ++ ")")⟩

theorem signatures_registerAll_characters :
    (((ofVersionWith Renderer.render "1").registerAll [backwards, characters]).lookup "length"
      = .ok characters) ∧
    ((ofVersionWith Renderer.render "1").registerAll [characters, backwards]).signatures
      = ((ofVersionWith Renderer.render "1").registerAll [backwards, characters]).signatures ∧
    (Catalogue.mk "2" ((ofVersionWith Renderer.render "1").registerAll
        [backwards, characters]).entries.reverse).signatures
      = ((ofVersionWith Renderer.render "1").registerAll [backwards, characters]).signatures := by
  obtain ⟨hlists, hcalls, horder⟩ :=
    signatures_registerAll Renderer.render "1" [backwards, characters]
  refine ⟨?_, hcalls _ fun name => ?_, horder _ (List.reverse_perm _)⟩
  · obtain ⟨s, hs, hname⟩ := (hlists.contains_iff "length").mp (by decide)
    have hlookup := hlists.lookup s hs
    have hlatest := hlists.latest s hs
    rw [hname] at hlookup hlatest
    have hs : characters = s := Option.some.inj hlatest
    rw [hlookup, hs]
  · rcases eq_or_ne characters.name name with rfl | hname
    · rfl
    · simp [List.filter_cons, hname]

end Catalogue

end QueryCompiler
