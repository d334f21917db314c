import Stencil.Proofs.DeclarationFormat
import Stencil.Proofs.EmissionFaults
import Mathlib.Data.List.Sort
import Mathlib.Data.Multiset.ZeroCons
import Mathlib.Data.String.Basic

/-! The imports of a declaration as a set: sorted, without repetition, and decided by which references occur in
its types, at any depth and in any order. -/
namespace Stencil

namespace Imports

theorem pairwise_insertSorted (p : String) {ps : List String} (h : ps.Pairwise (· < ·)) :
    (insertSorted p ps).Pairwise (· < ·) := by
  induction ps with
  | nil => simp [insertSorted]
  | cons q ps ih =>
    rw [List.pairwise_cons] at h
    rw [insertSorted]
    split
    · rename_i hlt
      refine List.pairwise_cons.2 ⟨?_, List.pairwise_cons.2 h⟩
      intro r hr
      cases List.mem_cons.1 hr with
      | inl heq => rwa [heq]
      | inr hmem => exact hlt.trans (h.1 r hmem)
    · split
      · exact List.pairwise_cons.2 h
      · rename_i hnlt hne
        refine List.pairwise_cons.2 ⟨?_, ih h.2⟩
        intro r hr
        cases mem_insertSorted.1 hr with
        | inl heq =>
          rw [heq]
          exact lt_of_le_of_ne (not_lt.1 hnlt) (Ne.symm hne)
        | inr hmem => exact h.1 r hmem

theorem pairwise_add {i : Imports} (h : i.packages.Pairwise (· < ·)) (p : String) :
    (i.add p).packages.Pairwise (· < ·) := by
  rw [add]
  split
  · exact h
  · exact pairwise_insertSorted p h

theorem pairwise_foldl_add {i : Imports} (h : i.packages.Pairwise (· < ·)) (ps : List String) :
    (ps.foldl add i).packages.Pairwise (· < ·) := by
  induction ps generalizing i with
  | nil => exact h
  | cons p ps ih => exact ih (pairwise_add h p)

theorem pairwise_ofPackages (ps : List String) : (ofPackages ps).packages.Pairwise (· < ·) :=
  pairwise_foldl_add .nil ps

theorem eq_of_mem_iff {i j : Imports} (hi : i.packages.Pairwise (· < ·)) (hj : j.packages.Pairwise (· < ·))
    (h : ∀ p, p ∈ i.packages ↔ p ∈ j.packages) : i = j := by
  cases i
  cases j
  rw [mk.injEq]
  exact hi.eq_of_mem_iff hj h

end Imports

namespace TypeExpr

inductive Holds (r : Ref) : TypeExpr → Prop
  | named : Holds r (.named r)
  | element {t : TypeExpr} (h : Holds r t) : Holds r (.vector t)
  | result {t : TypeExpr} {params : List TypeExpr} (h : Holds r t) : Holds r (.function (some t) params)
  | param {t : TypeExpr} {result : Option TypeExpr} {params : List TypeExpr} (hmem : t ∈ params)
      (h : Holds r t) : Holds r (.function result params)

/-- The same type, but for the order of the parameters of function types at any depth. -/
inductive Reordered : TypeExpr → TypeExpr → Prop
  | refl (t : TypeExpr) : Reordered t t
  | trans {t u v : TypeExpr} (h : Reordered t u) (h' : Reordered u v) : Reordered t v
  | element {t u : TypeExpr} (h : Reordered t u) : Reordered (.vector t) (.vector u)
  | result {t u : TypeExpr} {params : List TypeExpr} (h : Reordered t u) :
      Reordered (.function (some t) params) (.function (some u) params)
  | param {t u : TypeExpr} {result : Option TypeExpr} {before after : List TypeExpr} (h : Reordered t u) :
      Reordered (.function result (before ++ t :: after)) (.function result (before ++ u :: after))
  | params {result : Option TypeExpr} {params params' : List TypeExpr} (h : params.Perm params') :
      Reordered (.function result params) (.function result params')

variable {r : Ref}

theorem holds_vector_iff {t : TypeExpr} : Holds r (.vector t) ↔ t.Holds r := by
  constructor
  · intro h
    cases h with
    | element h => exact h
  · exact .element

theorem holds_function_iff {result : Option TypeExpr} {params : List TypeExpr} :
    Holds r (.function result params) ↔ (∃ t ∈ result, t.Holds r) ∨ ∃ t ∈ params, t.Holds r := by
  constructor
  · intro h
    cases h with
    | result h => exact .inl ⟨_, rfl, h⟩
    | param hmem h => exact .inr ⟨_, hmem, h⟩
  · rintro (⟨t, rfl, h⟩ | ⟨t, hmem, h⟩)
    · exact .result h
    · exact .param hmem h

theorem mem_paramRefs {params : List TypeExpr} : r ∈ paramRefs params ↔ ∃ t ∈ params, r ∈ t.refs := by
  induction params with
  | nil => simp [paramRefs]
  | cons t ts ih => simp [paramRefs, ih]

theorem mem_refs_iff_holds (t : TypeExpr) : r ∈ t.refs ↔ t.Holds r := by
  induction t using induct with
  | primitive p =>
    constructor
    · intro h
      simp [refs] at h
    · intro h
      cases h
  | named s =>
    constructor
    · intro h
      rw [refs, List.mem_singleton] at h
      rw [h]
      exact .named
    · intro h
      cases h
      simp [refs]
  | vector t ih => rw [refs, ih, holds_vector_iff]
  | function result params hresult hparams =>
    rw [refs, List.mem_append, mem_paramRefs, holds_function_iff]
    refine or_congr ?_ (exists_congr fun t => and_congr_right (hparams t))
    cases result with
    | none => simp [resultRefs]
    | some t => simpa [resultRefs] using hresult t rfl

theorem Reordered.holds_iff {t u : TypeExpr} (h : t.Reordered u) : t.Holds r ↔ u.Holds r := by
  induction h with
  | refl t => rfl
  | trans _ _ ih ih' => exact ih.trans ih'
  | element _ ih => rw [holds_vector_iff, ih, holds_vector_iff]
  | result _ ih => simp [holds_function_iff, ih]
  | param _ ih => simp [holds_function_iff, or_and_right, exists_or, ih]
  | params h => simp [holds_function_iff, h.mem_iff]

end TypeExpr

theorem exists_mem_iff_of_rel {α β : Type} {R : α → β → Prop} {P : α → Prop} {Q : β → Prop} {xs : List α}
    {ys : List β} (h : Multiset.Rel R xs ys) (hPQ : ∀ x y, R x y → (P x ↔ Q y)) :
    (∃ x ∈ xs, P x) ↔ ∃ y ∈ ys, Q y := by
  constructor
  · rintro ⟨x, hx, hP⟩
    obtain ⟨y, hy, hxy⟩ := Multiset.exists_mem_of_rel_of_mem h hx
    exact ⟨y, hy, (hPQ x y hxy).1 hP⟩
  · rintro ⟨y, hy, hQ⟩
    obtain ⟨x, hx, hxy⟩ := Multiset.exists_mem_of_rel_of_mem (Multiset.rel_flip.2 h) hy
    exact ⟨x, hx, (hPQ x y hxy).2 hQ⟩

theorem rel_of_perm {α : Type} {R : α → α → Prop} (hrefl : ∀ x, R x x) {xs ys : List α} (h : xs.Perm ys) :
    Multiset.Rel R xs ys := by
  rw [Multiset.coe_eq_coe.2 h]
  exact Multiset.rel_refl_of_refl_on fun x _ => hrefl x

def Field.Reordered (f g : Field) : Prop := f.type.Reordered g.type

def Method.Reordered (m n : Method) : Prop := Multiset.Rel TypeExpr.Reordered m.types n.types

theorem Method.reordered_of_perm {m : Method} {params : List Param} (h : m.params.Perm params) :
    m.Reordered { m with params } :=
  rel_of_perm TypeExpr.Reordered.refl ((h.map Param.type).append_left m.result.toList)

def Delegate.Reordered (g h : Delegate) : Prop := Multiset.Rel TypeExpr.Reordered g.types h.types

def Ref.LeadsTo (t : Table) (r : Ref) (target : Declaration) : Prop :=
  ∃ h, r.handle = some h ∧ t.get? h = some target

namespace Declaration

def Mentions (d : Declaration) (r : Ref) : Prop :=
  (∃ t ∈ d.base?.toList, t.Holds r) ∨ (∃ t ∈ d.interfaces, t.Holds r) ∨ (∃ f ∈ d.fields, f.type.Holds r) ∨
  (∃ m ∈ d.methods, ∃ t ∈ m.types, t.Holds r) ∨ (∃ g ∈ d.delegates, ∃ t ∈ g.types, t.Holds r) ∨
  ∃ t ∈ d.extraImports, t.Holds r

/-- The same types at the same places, up to the order of members, parameters and forced imports. Nothing else of
the two declarations is compared. -/
structure Reordered (d e : Declaration) : Prop where
  base : Multiset.Rel TypeExpr.Reordered d.base?.toList e.base?.toList
  interfaces : Multiset.Rel TypeExpr.Reordered d.interfaces e.interfaces
  fields : Multiset.Rel Field.Reordered d.fields e.fields
  methods : Multiset.Rel Method.Reordered d.methods e.methods
  delegates : Multiset.Rel Delegate.Reordered d.delegates e.delegates
  extraImports : Multiset.Rel TypeExpr.Reordered d.extraImports e.extraImports

variable {t : Table} {d e : Declaration} {r : Ref}

theorem mem_walkRefs_iff_mentions : r ∈ d.walkRefs ↔ d.Mentions r := by
  simp only [walkRefs, signatureTypes, Mentions, List.flatMap_append, List.mem_append, List.mem_flatMap,
    List.mem_map, TypeExpr.mem_refs_iff_holds]
  grind

theorem Reordered.mentions_iff (h : d.Reordered e) : d.Mentions r ↔ e.Mentions r := by
  have htypes {ts us : List TypeExpr} (hrel : Multiset.Rel TypeExpr.Reordered ts us) :
      (∃ t ∈ ts, t.Holds r) ↔ ∃ u ∈ us, u.Holds r :=
    exists_mem_iff_of_rel hrel fun _ _ htu => htu.holds_iff
  refine or_congr (htypes h.base) (or_congr (htypes h.interfaces) (or_congr ?_ (or_congr ?_ (or_congr ?_ ?_))))
  · exact exists_mem_iff_of_rel h.fields fun _ _ hfg => TypeExpr.Reordered.holds_iff hfg
  · exact exists_mem_iff_of_rel h.methods fun _ _ hmn => htypes hmn
  · exact exists_mem_iff_of_rel h.delegates fun _ _ hgh => htypes hgh
  · exact htypes h.extraImports

theorem imports_sorted {i : Imports} (h : d.imports t = .ok i) : i.packages.Pairwise (· < ·) := by
  obtain ⟨-, rfl⟩ := imports_eq_ok.1 h
  exact Imports.pairwise_ofPackages _

theorem package?_eq_some_iff {p : String} :
    package? t r = some p ↔ ∃ target, r.LeadsTo t target ∧ target.package = p := by
  simp only [package?, Ref.LeadsTo, Option.map_eq_some_iff, Option.bind_eq_some_iff]

theorem mem_imports_iff_mentions {i : Imports} (h : d.imports t = .ok i) {p : String} :
    p ∈ i.packages ↔ p ≠ "" ∧ ∃ r target, d.Mentions r ∧ r.LeadsTo t target ∧ target.package = p := by
  rw [mem_imports h]
  simp only [mem_walkRefs_iff_mentions, package?_eq_some_iff, exists_and_left]

theorem exists_imports_iff : (∃ i, d.imports t = .ok i) ↔ ∀ r h, d.Mentions r → ¬r.Dangles t h := by
  simp only [imports_eq_ok, mem_walkRefs_iff_mentions, Option.eq_none_iff_forall_ne_some, ne_eq,
    Ref.dangling?_eq_some_iff]
  constructor
  · rintro ⟨i, hsafe, -⟩ r h hr
    exact hsafe r hr h
  · intro hsafe
    exact ⟨_, fun r hr h => hsafe r h hr, rfl⟩

theorem Reordered.imports_eq {i : Imports} (hde : d.Reordered e) (h : d.imports t = .ok i) :
    e.imports t = .ok i := by
  obtain ⟨j, hj⟩ : ∃ j, e.imports t = .ok j := by
    rw [exists_imports_iff]
    intro r k hr
    exact exists_imports_iff.1 ⟨i, h⟩ r k (hde.mentions_iff.2 hr)
  have hij : i = j := by
    apply Imports.eq_of_mem_iff (imports_sorted h) (imports_sorted hj)
    intro p
    rw [mem_imports_iff_mentions h, mem_imports_iff_mentions hj]
    simp only [hde.mentions_iff]
  rw [hij, hj]

/-- Collecting the imports fails exactly if a reference with a handle outside of the table occurs somewhere in the
declaration. Otherwise they are sorted by code points, they are the packages below the top level that the references
of the declaration lead to, and a declaration with the same types in another order has the same imports. -/
theorem imports_collected (t : Table) (d : Declaration) :
    ((∃ e, d.imports t = .error e) ↔ ∃ r h, d.Mentions r ∧ r.Dangles t h) ∧
    ∀ i, d.imports t = .ok i →
      i.packages.Pairwise (· < ·) ∧
      (∀ p, p ∈ i.packages ↔ p ≠ "" ∧ ∃ r target, d.Mentions r ∧ r.LeadsTo t target ∧ target.package = p) ∧
      ∀ e, d.Reordered e → e.imports t = .ok i := by
  refine ⟨?_, fun i h => ⟨imports_sorted h, fun p => mem_imports_iff_mentions h, fun e he => he.imports_eq h⟩⟩
  have hfails : (∃ e, d.imports t = .error e) ↔ ¬∃ i, d.imports t = .ok i := by
    cases d.imports t <;> simp
  rw [hfails, exists_imports_iff]
  push Not
  rfl

def places : Table := ⟨[
  { kind := .classKind none, package := "z.util", name := "List" },
  { kind := .classKind none, package := "a.geom", name := "Point" },
  { kind := .classKind none, name := "Main" }]⟩

def scene (callbackParams : List TypeExpr) (params : List Param) : Declaration where
  kind := .classKind none
  package := "app"
  name := "Scene"
  fields := [{ type := .vector (.function (some (.named ⟨"List", some ⟨0⟩⟩)) callbackParams), name := "onMove" }]
  methods := [{ name := "move", params }]

theorem scene_reordered {ts us : List TypeExpr} {ps qs : List Param} (htypes : ts.Perm us) (hparams : ps.Perm qs) :
    (scene ts ps).Reordered (scene us qs) where
  base := .zero
  interfaces := .zero
  fields := .cons (.element (.params htypes)) .zero
  methods := .cons (Method.reordered_of_perm (m := { name := "move", params := ps }) hparams) .zero
  delegates := .zero
  extraImports := .zero

theorem scene_imports_collected :
    let point : TypeExpr := .named ⟨"Point", some ⟨1⟩⟩
    let main : TypeExpr := .named ⟨"Main", some ⟨2⟩⟩
    let i : Imports := ⟨["a.geom", "z.util"]⟩
    (scene [point, main] [⟨point, "to"⟩, ⟨main, "by"⟩]).imports places = .ok i ∧
    i.packages.Pairwise (· < ·) ∧
    (scene [main, point] [⟨main, "by"⟩, ⟨point, "to"⟩]).imports places = .ok i := by
  intro point main i
  have h : (scene [point, main] [⟨point, "to"⟩, ⟨main, "by"⟩]).imports places = .ok i := by decide +kernel
  obtain ⟨hsorted, -, hkept⟩ := (imports_collected places _).2 i h
  exact ⟨h, hsorted, hkept _ (scene_reordered (.swap ..) (.swap ..))⟩

end Declaration

end Stencil
