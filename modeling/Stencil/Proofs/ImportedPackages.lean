import Stencil.Imports
import Stencil.Lint.Basic
import Stencil.Proofs.References

/-! The packages that a declaration imports: those of all declarations that its references lead to. A reference
that leads out of the table is the only reason to fail. The walk that collects the imports and that of the lint are
two; each goes through the references in the order of `siteRefs`. -/
namespace Stencil

namespace Imports

theorem mem_insertSorted {p q : String} {ps : List String} : p ∈ insertSorted q ps ↔ p = q ∨ p ∈ ps := by
  induction ps with
  | nil => simp [insertSorted]
  | cons r ps ih =>
    rw [insertSorted]
    split
    · simp
    · split
      · simp_all
      · rw [List.mem_cons, ih, List.mem_cons]
        tauto

theorem mem_add {i : Imports} {p q : String} :
    p ∈ (i.add q).packages ↔ p ∈ i.packages ∨ p = q ∧ q ≠ "" := by
  by_cases hq : q = ""
  · simp [add, hq]
  · simp [add, hq, mem_insertSorted, or_comm]

theorem mem_foldl_add {i : Imports} {p : String} {ps : List String} :
    p ∈ (ps.foldl add i).packages ↔ p ∈ i.packages ∨ p ∈ ps ∧ p ≠ "" := by
  induction ps generalizing i with
  | nil => simp
  | cons q ps ih =>
    rw [List.foldl_cons, ih, mem_add, List.mem_cons]
    constructor
    · rintro ((hi | ⟨rfl, hq⟩) | ⟨hp, hne⟩)
      · exact .inl hi
      · exact .inr ⟨.inl rfl, hq⟩
      · exact .inr ⟨.inr hp, hne⟩
    · rintro (hi | ⟨rfl | hp, hne⟩)
      · exact .inl (.inl hi)
      · exact .inl (.inr ⟨rfl, hne⟩)
      · exact .inr ⟨hp, hne⟩

theorem mem_ofPackages {p : String} {ps : List String} :
    p ∈ (ofPackages ps).packages ↔ p ∈ ps ∧ p ≠ "" := by
  simp [ofPackages, mem_foldl_add]

end Imports

def Site.memberLabel : Site → String
  | base => "extends"
  | interface => "implements"
  | member name => name
  | extraImport => "additional import"

def Site.pathLabel : Site → String
  | base => "extends"
  | interface => "implements"
  | member name => name
  | extraImport => "imports"

section Walks

mutual
theorem Imports.addType_eq (t : Table) (d : Declaration) (member : String) : (type : TypeExpr) → (i : Imports) →
    addType t d member i type = type.refs.foldlM (addRef t d member) i
  | .primitive _, _ => rfl
  | .named r, i => by rw [addType, TypeExpr.refs, List.foldlM_cons]; exact (bind_pure _).symm
  | .vector element, i => by rw [addType, TypeExpr.refs, addType_eq t d member element]
  | .function result params, i => by
    rw [addType, TypeExpr.refs, List.foldlM_append, addResult_eq t d member result]
    exact bind_congr fun i => addParams_eq t d member params i

theorem Imports.addResult_eq (t : Table) (d : Declaration) (member : String) :
    (result : Option TypeExpr) → (i : Imports) →
      addResult t d member i result = (TypeExpr.resultRefs result).foldlM (addRef t d member) i
  | none, _ => rfl
  | some type, i => by rw [addResult, TypeExpr.resultRefs, addType_eq t d member type]

theorem Imports.addParams_eq (t : Table) (d : Declaration) (member : String) :
    (params : List TypeExpr) → (i : Imports) →
      addParams t d member i params = (TypeExpr.paramRefs params).foldlM (addRef t d member) i
  | [], _ => rfl
  | type :: types, i => by
    rw [addParams, TypeExpr.paramRefs, List.foldlM_append, addType_eq t d member type]
    exact bind_congr fun i => addParams_eq t d member types i
end

mutual
theorem Lint.collectDangling_eq (t : Table) : (type : TypeExpr) →
    collectDangling t type = type.refs.filterMap fun r => (dangling? t r).map (Prod.mk r.name)
  | .primitive _ => rfl
  | .named r => by
    rw [collectDangling, TypeExpr.refs]
    cases hr : dangling? t r <;> simp [hr]
  | .vector element => by rw [collectDangling, TypeExpr.refs, collectDangling_eq t element]
  | .function result params => by
    rw [collectDangling, TypeExpr.refs, List.filterMap_append, collectResult_eq t result, collectParams_eq t params]

theorem Lint.collectResult_eq (t : Table) : (result : Option TypeExpr) →
    collectResult t result = (TypeExpr.resultRefs result).filterMap fun r => (dangling? t r).map (Prod.mk r.name)
  | none => rfl
  | some type => by rw [collectResult, TypeExpr.resultRefs, collectDangling_eq t type]

theorem Lint.collectParams_eq (t : Table) : (params : List TypeExpr) →
    collectParams t params = (TypeExpr.paramRefs params).filterMap fun r => (dangling? t r).map (Prod.mk r.name)
  | [] => rfl
  | type :: types => by
    rw [collectParams, TypeExpr.paramRefs, List.filterMap_append, collectDangling_eq t type, collectParams_eq t types]
end

end Walks

namespace Declaration

def danglingError? (t : Table) (d : Declaration) (site : Site) (r : Ref) : Option EmitError :=
  (Lint.dangling? t r).map (.unresolvedType d.qualifiedName site.memberLabel r.name)

def danglingReport (d : Declaration) (site : Site) (name : String) (h : Handle) : Diagnostic where
  severity := .error
  lint := Lint.unresolvedTypes.name
  message := "type '" ++ name ++ "' points at missing declaration " ++ h.label
  location := some (d.memberPath site.pathLabel)

def package? (t : Table) (r : Ref) : Option String := (r.handle.bind t.get?).map Declaration.package

variable {t : Table} {d : Declaration}

theorem danglingTypes_eq (site : Site) (type : TypeExpr) : Lint.danglingTypes t d site.pathLabel type =
    type.refs.filterMap fun r => (Lint.dangling? t r).map (d.danglingReport site r.name) := by
  simp only [Lint.danglingTypes, Lint.collectDangling_eq, List.map_filterMap, Option.map_map]
  rfl

/-- The lint goes through the places in their order. -/
theorem unresolvedTypes_check : Lint.unresolvedTypes.check t d = d.sites.flatMap fun place =>
    place.2.refs.filterMap fun r => (Lint.dangling? t r).map (d.danglingReport place.1 r.name) := by
  have hsites : Lint.unresolvedTypes.check t d =
      d.sites.flatMap fun place => Lint.danglingTypes t d place.1.pathLabel place.2 := by
    simp only [sites, List.flatMap_append, List.flatMap_map, List.flatMap_assoc]
    rfl
  simp only [hsites, danglingTypes_eq]

theorem unresolvedTypes_check_siteRefs : Lint.unresolvedTypes.check t d =
    d.siteRefs.filterMap fun entry => (Lint.dangling? t entry.2).map (d.danglingReport entry.1 entry.2.name) := by
  simp only [unresolvedTypes_check, siteRefs, List.filterMap_flatMap, List.filterMap_map]
  rfl

theorem imports_eq_foldlM : d.imports t =
    d.siteRefs.foldlM (fun i entry => Imports.addRef t d entry.1.memberLabel i entry.2) {} := by
  have hsites : d.imports t = d.sites.foldlM (fun i place => Imports.addType t d place.1.memberLabel i place.2) {} := by
    simp only [imports, sites, List.foldlM_append, List.foldlM_map, foldlM_flatMap, bind_assoc]
    rfl
  simp only [hsites, siteRefs, foldlM_flatMap, List.foldlM_map, Imports.addType_eq]

theorem addRef_outcome (site : Site) (i : Imports) (r : Ref) : Imports.addRef t d site.memberLabel i r =
    outcome (d.danglingError? t site r) ((package? t r).elim i i.add) := by
  cases hr : r.handle with
  | none => simp [Imports.addRef, danglingError?, Lint.dangling?, package?, hr, outcome]
  | some h =>
    cases ht : t.get? h with
    | none => simp [Imports.addRef, danglingError?, Lint.dangling?, hr, ht, Option.filter_some, outcome]
    | some target =>
      simp [Imports.addRef, danglingError?, Lint.dangling?, package?, hr, ht, Option.filter_some, outcome]

theorem foldlM_addRef (entries : List (Site × Ref)) (i : Imports) :
    entries.foldlM (fun i entry => Imports.addRef t d entry.1.memberLabel i entry.2) i =
      outcome (entries.findSome? fun entry => d.danglingError? t entry.1 entry.2)
        ((entries.filterMap fun entry => package? t entry.2).foldl Imports.add i) := by
  induction entries generalizing i with
  | nil => rfl
  | cons entry entries ih =>
    rw [List.foldlM_cons, addRef_outcome]
    simp only [ih, outcome_bind]
    congr 1
    · cases hentry : d.danglingError? t entry.1 entry.2 <;> simp [hentry]
    · cases hentry : package? t entry.2 <;> simp [hentry]

theorem imports_outcome : d.imports t =
    outcome (d.siteRefs.findSome? fun (site, r) => d.danglingError? t site r)
      (.ofPackages ((d.siteRefs.map fun (_, r) => package? t r).filterMap id)) := by
  rw [imports_eq_foldlM, foldlM_addRef, List.filterMap_map]
  rfl

theorem imports_eq_ok {imports : Imports} : d.imports t = .ok imports ↔
    (∀ r ∈ d.walkRefs, Lint.dangling? t r = none) ∧
      .ofPackages ((d.siteRefs.map fun (_, r) => package? t r).filterMap id) = imports := by
  rw [imports_outcome, outcome_eq_ok, List.findSome?_eq_none_iff]
  refine and_congr_left fun _ => ⟨fun h r hr => ?_, fun h entry hentry => ?_⟩
  · obtain ⟨site, hsite⟩ := mem_walkRefs.1 hr
    simpa [danglingError?] using h (site, r) hsite
  · have hr := h entry.2 (mem_walkRefs.2 ⟨entry.1, hentry⟩)
    simp [danglingError?, hr]

theorem mem_imports {imports : Imports} (h : d.imports t = .ok imports) {p : String} :
    p ∈ imports.packages ↔ p ≠ "" ∧ ∃ r ∈ d.walkRefs, package? t r = some p := by
  obtain ⟨-, rfl⟩ := imports_eq_ok.1 h
  rw [Imports.mem_ofPackages, and_comm, List.filterMap_map, List.mem_filterMap]
  refine and_congr_right fun _ => ⟨?_, ?_⟩
  · rintro ⟨⟨site, r⟩, hr, hp⟩
    exact ⟨r, mem_walkRefs.2 ⟨site, hr⟩, hp⟩
  · rintro ⟨r, hr, hp⟩
    obtain ⟨site, hsite⟩ := mem_walkRefs.1 hr
    exact ⟨(site, r), hsite, hp⟩

end Declaration

end Stencil
