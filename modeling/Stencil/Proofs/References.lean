import Stencil.Declaration.Walks
import Stencil.Proofs.Outcomes

/-! References of types and declarations: the references in the order of a traversal, and the replacement of
all of them at once. Main statement: a traversal that may fail either stops at the first reference on which
it fails, or replaces every reference and nothing else. -/
namespace Stencil

inductive Site
  | base
  | interface
  | member (name : String)
  | extraImport
deriving DecidableEq, Repr

namespace Declaration

def sites (d : Declaration) : List (Site × TypeExpr) :=
  d.base?.toList.map (Prod.mk .base) ++
  d.interfaces.map (Prod.mk .interface) ++
  d.fields.map (fun f => (.member f.name, f.type)) ++
  d.methods.flatMap (fun m => m.types.map (Prod.mk (.member m.name))) ++
  d.delegates.flatMap (fun g => g.types.map (Prod.mk (.member g.name))) ++
  d.extraImports.map (Prod.mk .extraImport)

/-- Every reference of the declaration with its place. -/
def siteRefs (d : Declaration) : List (Site × Ref) :=
  d.sites.flatMap fun (site, type) => type.refs.map (Prod.mk site)

end Declaration

/-- The references of a declaration in the order in which they are linked. -/
def Declaration.walkRefs (d : Declaration) : List Ref :=
  (d.signatureTypes ++ d.extraImports ++ d.delegates.flatMap Delegate.types).flatMap TypeExpr.refs

theorem Declaration.sites_types (d : Declaration) : d.sites.map Prod.snd =
    d.signatureTypes ++ d.delegates.flatMap Delegate.types ++ d.extraImports := by
  simp [Declaration.sites, Declaration.signatureTypes, List.map_flatMap, Function.comp_def]

theorem Declaration.siteRefs_refs (d : Declaration) : d.siteRefs.map Prod.snd =
    (d.signatureTypes ++ d.delegates.flatMap Delegate.types ++ d.extraImports).flatMap TypeExpr.refs := by
  rw [← d.sites_types]
  simp [Declaration.siteRefs, List.map_flatMap, List.flatMap_map, Function.comp_def]

theorem Declaration.mem_walkRefs {d : Declaration} {r : Ref} :
    r ∈ d.walkRefs ↔ ∃ site, (site, r) ∈ d.siteRefs := by
  have hmem : r ∈ d.walkRefs ↔ r ∈ d.siteRefs.map Prod.snd := by
    rw [Declaration.siteRefs_refs, Declaration.walkRefs]
    simp only [List.flatMap_append, List.mem_append]
    exact or_right_comm
  rw [hmem, List.mem_map]
  constructor
  · rintro ⟨⟨site, _⟩, hr, rfl⟩
    exact ⟨site, hr⟩
  · rintro ⟨site, hr⟩
    exact ⟨_, hr, rfl⟩

theorem findSome?_flatMap {α β γ : Type} (p : β → Option γ) (g : α → List β) (xs : List α) :
    (xs.flatMap g).findSome? p = xs.findSome? fun x => (g x).findSome? p := by
  induction xs with
  | nil => rfl
  | cons x xs ih =>
    rw [List.flatMap_cons, List.findSome?_append, ih, List.findSome?_cons]
    cases (g x).findSome? p <;> rfl

section Traversal

variable {ε : Type} (error? : Ref → Option ε) (value : Ref → Ref)

mutual
theorem TypeExpr.traverse_outcome : (t : TypeExpr) →
    t.traverse (fun r => outcome (error? r) (value r)) = outcome (t.refs.findSome? error?) (t.mapRefs value)
  | .primitive _ => rfl
  | .named r => by
    simp only [TypeExpr.traverse, TypeExpr.refs, TypeExpr.mapRefs, outcome_pure, outcome_bind]
    cases hr : error? r <;> simp [hr]
  | .vector t => by
    simp only [TypeExpr.traverse, TypeExpr.refs, TypeExpr.mapRefs, t.traverse_outcome, outcome_pure,
      outcome_bind, Option.or_none]
  | .function result params => by
    simp only [TypeExpr.traverse, TypeExpr.refs, TypeExpr.mapRefs, traverseResult_outcome result,
      traverseParams_outcome params, outcome_pure, outcome_bind, Option.or_none, List.findSome?_append]

theorem TypeExpr.traverseResult_outcome : (result : Option TypeExpr) →
    TypeExpr.traverseResult (fun r => outcome (error? r) (value r)) result =
      outcome ((TypeExpr.resultRefs result).findSome? error?) (TypeExpr.mapResultRefs value result)
  | none => rfl
  | some t => by
    simp only [TypeExpr.traverseResult, TypeExpr.resultRefs, TypeExpr.mapResultRefs, t.traverse_outcome,
      outcome_pure, outcome_bind, Option.or_none]

theorem TypeExpr.traverseParams_outcome : (params : List TypeExpr) →
    TypeExpr.traverseParams (fun r => outcome (error? r) (value r)) params =
      outcome ((TypeExpr.paramRefs params).findSome? error?) (TypeExpr.mapParamRefs value params)
  | [] => rfl
  | t :: ts => by
    simp only [TypeExpr.traverseParams, TypeExpr.paramRefs, TypeExpr.mapParamRefs, t.traverse_outcome,
      TypeExpr.traverseParams_outcome ts, outcome_pure, outcome_bind, Option.or_none, List.findSome?_append]
end

theorem option_mapM_outcome {α β : Type} (error? : α → Option ε) (value : α → β) (o : Option α) :
    o.mapM (fun x => outcome (error? x) (value x)) = outcome (o.toList.findSome? error?) (o.map value) := by
  cases o with
  | none => rfl
  | some a => cases ha : error? a <;> simp [outcome, ha, Functor.map, Except.map]

theorem Param.traverse_outcome (p : Param) :
    p.traverse (fun r => outcome (error? r) (value r)) =
      outcome (p.type.refs.findSome? error?) (p.mapRefs value) := by
  simp only [Param.traverse, TypeExpr.traverse_outcome, outcome_pure, outcome_bind, Option.or_none,
    Param.mapRefs]

theorem Field.traverse_outcome (x : Field) :
    x.traverse (fun r => outcome (error? r) (value r)) =
      outcome (x.type.refs.findSome? error?) (x.mapRefs value) := by
  simp only [Field.traverse, TypeExpr.traverse_outcome, outcome_pure, outcome_bind, Option.or_none,
    Field.mapRefs]

theorem Method.traverse_outcome (x : Method) :
    x.traverse (fun r => outcome (error? r) (value r)) =
      outcome ((x.types.flatMap TypeExpr.refs).findSome? error?) (x.mapRefs value) := by
  simp only [Method.traverse, TypeExpr.traverse_outcome, Param.traverse_outcome, option_mapM_outcome,
    mapM_outcome, outcome_pure, outcome_bind, Option.or_none, Method.types, findSome?_flatMap,
    List.findSome?_append, List.findSome?_map, Function.comp_def, Method.mapRefs]

theorem Delegate.traverse_outcome (x : Delegate) :
    x.traverse (fun r => outcome (error? r) (value r)) =
      outcome ((x.types.flatMap TypeExpr.refs).findSome? error?) (x.mapRefs value) := by
  simp only [Delegate.traverse, TypeExpr.traverse_outcome, Param.traverse_outcome, option_mapM_outcome,
    mapM_outcome, outcome_pure, outcome_bind, Option.or_none, Delegate.types, findSome?_flatMap,
    List.findSome?_append, List.findSome?_map, Function.comp_def, Delegate.mapRefs]

theorem Declaration.traverse_kind_outcome (d : Declaration) :
    d.kind.traverse (fun r => outcome (error? r) (value r)) =
      outcome ((d.base?.toList.flatMap TypeExpr.refs).findSome? error?) (d.kind.mapRefs value) := by
  cases hk : d.kind with
  | interfaceKind => simp [DeclarationKind.traverse, Declaration.base?, hk, outcome_pure, DeclarationKind.mapRefs]
  | classKind base =>
    simp only [DeclarationKind.traverse, TypeExpr.traverse_outcome, option_mapM_outcome, outcome_pure,
      outcome_bind, Option.or_none, Declaration.base?, hk, findSome?_flatMap, DeclarationKind.mapRefs]

theorem Declaration.traverse_outcome (d : Declaration) :
    d.traverse (fun r => outcome (error? r) (value r)) =
      outcome (d.walkRefs.findSome? error?) (d.mapRefs value) := by
  simp only [Declaration.traverse, Declaration.traverse_kind_outcome, TypeExpr.traverse_outcome,
    Field.traverse_outcome, Method.traverse_outcome, Delegate.traverse_outcome, mapM_outcome, outcome_pure,
    outcome_bind, Option.or_none, Declaration.walkRefs, Declaration.signatureTypes, findSome?_flatMap,
    List.findSome?_append, List.findSome?_map, Function.comp_def, Option.or_assoc, Declaration.mapRefs]

end Traversal

/-- Only the references of the walk matter. A traversal that fails where the two replacements differ is the
same traversal for both, and it does not fail. -/
theorem Declaration.mapRefs_congr {f g : Ref → Ref} {d : Declaration} (h : ∀ r ∈ d.walkRefs, f r = g r) :
    d.mapRefs f = d.mapRefs g := by
  let differs? (r : Ref) : Option Unit := if f r = g r then none else some ()
  have hsame : (fun r => outcome (differs? r) (f r)) = fun r => outcome (differs? r) (g r) := by
    funext r
    by_cases hr : f r = g r <;> simp [differs?, outcome, hr]
  have hnone : d.walkRefs.findSome? differs? = none :=
    List.findSome?_eq_none_iff.2 fun r hr => if_pos (h r hr)
  have hf := d.traverse_outcome differs? f
  rw [hsame, d.traverse_outcome differs? g, hnone] at hf
  exact (Except.ok.inj hf).symm

section Replaced

variable (f : Ref → Ref)

mutual
theorem TypeExpr.refs_mapRefs : (t : TypeExpr) → (t.mapRefs f).refs = t.refs.map f
  | .primitive _ => rfl
  | .named _ => rfl
  | .vector t => by rw [TypeExpr.mapRefs, TypeExpr.refs, t.refs_mapRefs, TypeExpr.refs]
  | .function result params => by
    rw [TypeExpr.mapRefs, TypeExpr.refs, TypeExpr.resultRefs_mapRefs result,
      TypeExpr.paramRefs_mapRefs params, TypeExpr.refs, List.map_append]

theorem TypeExpr.resultRefs_mapRefs : (result : Option TypeExpr) →
    TypeExpr.resultRefs (TypeExpr.mapResultRefs f result) = (TypeExpr.resultRefs result).map f
  | none => rfl
  | some t => by rw [TypeExpr.mapResultRefs, TypeExpr.resultRefs, t.refs_mapRefs, TypeExpr.resultRefs]

theorem TypeExpr.paramRefs_mapRefs : (params : List TypeExpr) →
    TypeExpr.paramRefs (TypeExpr.mapParamRefs f params) = (TypeExpr.paramRefs params).map f
  | [] => rfl
  | t :: ts => by
    rw [TypeExpr.mapParamRefs, TypeExpr.paramRefs, t.refs_mapRefs, TypeExpr.paramRefs_mapRefs ts,
      TypeExpr.paramRefs, List.map_append]
end

theorem Method.types_mapRefs (m : Method) : (m.mapRefs f).types = m.types.map (·.mapRefs f) := by
  cases hr : m.result <;> simp [Method.types, Method.mapRefs, Param.mapRefs, hr, Function.comp_def]

theorem Delegate.types_mapRefs (g : Delegate) : (g.mapRefs f).types = g.types.map (·.mapRefs f) := by
  cases hr : g.result <;> simp [Delegate.types, Delegate.mapRefs, Param.mapRefs, hr, Function.comp_def]

theorem Declaration.base?_mapRefs (d : Declaration) :
    (d.mapRefs f).base?.toList = d.base?.toList.map (·.mapRefs f) := by
  cases hk : d.kind with
  | interfaceKind => simp [Declaration.base?, Declaration.mapRefs, DeclarationKind.mapRefs, hk]
  | classKind base =>
    cases base <;> simp [Declaration.base?, Declaration.mapRefs, DeclarationKind.mapRefs, hk]

theorem Declaration.signatureTypes_mapRefs (d : Declaration) :
    (d.mapRefs f).signatureTypes = d.signatureTypes.map (·.mapRefs f) := by
  simp only [Declaration.signatureTypes, Declaration.base?_mapRefs]
  simp [Declaration.mapRefs, Field.mapRefs, List.flatMap_map, List.map_flatMap, Method.types_mapRefs,
    Function.comp_def]

theorem Declaration.walkRefs_mapRefs (d : Declaration) : (d.mapRefs f).walkRefs = d.walkRefs.map f := by
  rw [Declaration.walkRefs, Declaration.signatureTypes_mapRefs]
  simp [Declaration.mapRefs, Declaration.walkRefs, List.flatMap_map, List.map_flatMap, List.flatMap_assoc,
    TypeExpr.refs_mapRefs, Delegate.types_mapRefs]

end Replaced

section Composed

variable (f g : Ref → Ref)

mutual
theorem TypeExpr.mapRefs_mapRefs : (t : TypeExpr) → (t.mapRefs f).mapRefs g = t.mapRefs (g ∘ f)
  | .primitive _ => rfl
  | .named _ => rfl
  | .vector t => by rw [TypeExpr.mapRefs, TypeExpr.mapRefs, t.mapRefs_mapRefs, TypeExpr.mapRefs]
  | .function result params => by
    rw [TypeExpr.mapRefs, TypeExpr.mapRefs, TypeExpr.mapResultRefs_mapRefs result,
      TypeExpr.mapParamRefs_mapRefs params, TypeExpr.mapRefs]

theorem TypeExpr.mapResultRefs_mapRefs : (result : Option TypeExpr) →
    TypeExpr.mapResultRefs g (TypeExpr.mapResultRefs f result) = TypeExpr.mapResultRefs (g ∘ f) result
  | none => rfl
  | some t => by
    rw [TypeExpr.mapResultRefs, TypeExpr.mapResultRefs, t.mapRefs_mapRefs, TypeExpr.mapResultRefs]

theorem TypeExpr.mapParamRefs_mapRefs : (params : List TypeExpr) →
    TypeExpr.mapParamRefs g (TypeExpr.mapParamRefs f params) = TypeExpr.mapParamRefs (g ∘ f) params
  | [] => rfl
  | t :: ts => by
    rw [TypeExpr.mapParamRefs, TypeExpr.mapParamRefs, t.mapRefs_mapRefs,
      TypeExpr.mapParamRefs_mapRefs ts, TypeExpr.mapParamRefs]
end

theorem Declaration.mapRefs_mapRefs (d : Declaration) : (d.mapRefs f).mapRefs g = d.mapRefs (g ∘ f) := by
  have hkind : (d.kind.mapRefs f).mapRefs g = d.kind.mapRefs (g ∘ f) := by
    cases d.kind <;> simp [DeclarationKind.mapRefs, TypeExpr.mapRefs_mapRefs, Function.comp_def]
  simp [Declaration.mapRefs, hkind, Field.mapRefs, Method.mapRefs, Delegate.mapRefs, Param.mapRefs,
    TypeExpr.mapRefs_mapRefs, Function.comp_def]

mutual
theorem TypeExpr.mapRefs_id : (t : TypeExpr) → t.mapRefs id = t
  | .primitive _ => rfl
  | .named _ => rfl
  | .vector t => by rw [TypeExpr.mapRefs, t.mapRefs_id]
  | .function result params => by
    rw [TypeExpr.mapRefs, TypeExpr.mapResultRefs_id result, TypeExpr.mapParamRefs_id params]

theorem TypeExpr.mapResultRefs_id : (result : Option TypeExpr) → TypeExpr.mapResultRefs id result = result
  | none => rfl
  | some t => by rw [TypeExpr.mapResultRefs, t.mapRefs_id]

theorem TypeExpr.mapParamRefs_id : (params : List TypeExpr) → TypeExpr.mapParamRefs id params = params
  | [] => rfl
  | t :: ts => by rw [TypeExpr.mapParamRefs, t.mapRefs_id, TypeExpr.mapParamRefs_id ts]
end

theorem Declaration.mapRefs_id (d : Declaration) : d.mapRefs id = d := by
  have htypes : TypeExpr.mapRefs id = id := funext TypeExpr.mapRefs_id
  have hparams : Param.mapRefs id = id := funext fun p => by simp [Param.mapRefs, htypes]
  have hfields : Field.mapRefs id = id := funext fun f => by simp [Field.mapRefs, htypes]
  have hmethods : Method.mapRefs id = id := funext fun m => by simp [Method.mapRefs, htypes, hparams]
  have hdelegates : Delegate.mapRefs id = id := funext fun g => by simp [Delegate.mapRefs, htypes, hparams]
  have hkind : d.kind.mapRefs id = d.kind := by
    cases d.kind <;> simp [DeclarationKind.mapRefs, htypes]
  simp [Declaration.mapRefs, hkind, htypes, hfields, hmethods, hdelegates]

theorem Declaration.siteRefs_mapRefs (d : Declaration) :
    (d.mapRefs f).siteRefs = d.siteRefs.map (Prod.map id f) := by
  have hsites : (d.mapRefs f).sites = d.sites.map (Prod.map id (TypeExpr.mapRefs f)) := by
    simp only [Declaration.sites, Declaration.base?_mapRefs]
    simp [Declaration.mapRefs, Field.mapRefs, List.flatMap_map, List.map_flatMap, Method.types_mapRefs,
      Delegate.types_mapRefs, Function.comp_def]
    simp [Delegate.mapRefs, Method.mapRefs]
  simp [Declaration.siteRefs, hsites, List.flatMap_map, List.map_flatMap, TypeExpr.refs_mapRefs, Function.comp_def]

end Composed

end Stencil
