import Stencil.Dialect.Brace
import Stencil.Dialect.CSharp
import Stencil.Proofs.References
import Stencil.Proofs.WrittenLines

/-! What is written of a declaration depends on the names of its references and on which of them have a handle,
but not on the handles themselves. -/
namespace Stencil

inductive Target
  | csharp (indent : Indent) (policy : InitPolicy)
  | brace

def Target.dialect : Target → Dialect
  | csharp indent policy => .csharp indent policy
  | brace => .brace

/-- A replacement of references that leaves no trace in what a dialect writes. -/
structure Dialect.Overlooks (δ : Dialect) (g : Ref → Ref) : Prop where
  refName (r : Ref) : δ.refName (g r) = δ.refName r
  constKeyword (t : TypeExpr) : δ.constKeyword (t.mapRefs g) = δ.constKeyword t

/-- The reference with the first handle in place of its own. -/
def Ref.unplaced (r : Ref) : Ref := { r with handle := r.handle.map fun _ => ⟨0⟩ }

theorem TypeExpr.isClassLike_mapRefs (g : Ref → Ref) (t : TypeExpr) :
    (t.mapRefs g).isClassLike = t.isClassLike := by
  cases t <;> rfl

theorem Dialect.refName_unplaced (δ : Dialect) (r : Ref) : δ.refName r.unplaced = δ.refName r := by
  cases hr : r.handle <;> simp [Dialect.refName, Ref.unplaced, hr]

theorem Target.overlooks_unplaced (target : Target) : target.dialect.Overlooks Ref.unplaced where
  refName := target.dialect.refName_unplaced
  constKeyword t := by
    cases target with
    | csharp indent policy => simp only [dialect, Dialect.csharp, TypeExpr.isClassLike_mapRefs]
    | brace => rfl

namespace Dialect.Overlooks

variable {δ : Dialect} {g : Ref → Ref}

mutual
theorem type_mapRefs (h : δ.Overlooks g) : (t : TypeExpr) → δ.type (t.mapRefs g) = δ.type t
  | .primitive _ => rfl
  | .named r => h.refName r
  | .vector t => by rw [TypeExpr.mapRefs, Dialect.type, h.type_mapRefs t, Dialect.type]
  | .function result params => by
    rw [TypeExpr.mapRefs, Dialect.type, h.resultType?_mapRefs result, h.types_mapRefs params, Dialect.type]

theorem resultType?_mapRefs (h : δ.Overlooks g) : (result : Option TypeExpr) →
    δ.resultType? (TypeExpr.mapResultRefs g result) = δ.resultType? result
  | none => rfl
  | some t => by rw [TypeExpr.mapResultRefs, Dialect.resultType?, h.type_mapRefs t, Dialect.resultType?]

theorem types_mapRefs (h : δ.Overlooks g) : (ts : List TypeExpr) →
    δ.types (TypeExpr.mapParamRefs g ts) = δ.types ts
  | [] => rfl
  | t :: ts => by rw [TypeExpr.mapParamRefs, Dialect.types, h.type_mapRefs t, h.types_mapRefs ts, Dialect.types]
end

theorem returnType_map (h : δ.Overlooks g) (result : Option TypeExpr) :
    δ.returnType (result.map (·.mapRefs g)) = δ.returnType result := by
  simp [returnType, Function.comp_def, h.type_mapRefs]

theorem params_map (h : δ.Overlooks g) (ps : List Param) : δ.params (ps.map (·.mapRefs g)) = δ.params ps := by
  simp [params, Function.comp_def, Param.mapRefs, h.type_mapRefs]

theorem signature_mapRefs (h : δ.Overlooks g) (m : Method) : δ.signature (m.mapRefs g) = δ.signature m := by
  rw [signature, Method.mapRefs, h.returnType_map, h.params_map]
  rfl

theorem delegateLine_mapRefs (h : δ.Overlooks g) (x : Delegate) : δ.delegateLine (x.mapRefs g) = δ.delegateLine x := by
  rw [delegateLine, Delegate.mapRefs, h.returnType_map, h.params_map]
  rfl

theorem fieldLine_mapRefs (h : δ.Overlooks g) (f : Field) : δ.fieldLine (f.mapRefs g) = δ.fieldLine f := by
  simp only [fieldLine, fieldModifier, Field.mapRefs, h.type_mapRefs, h.constKeyword]
  rfl

theorem inherited_mapRefs (h : δ.Overlooks g) (d : Declaration) :
    (d.mapRefs g).base?.map δ.type = d.base?.map δ.type ∧
      (d.mapRefs g).interfaces.map δ.type = d.interfaces.map δ.type := by
  constructor
  · cases hk : d.kind <;>
      simp [Declaration.base?, Declaration.mapRefs, DeclarationKind.mapRefs, hk, Function.comp_def, h.type_mapRefs]
  · simp [Declaration.mapRefs, Function.comp_def, h.type_mapRefs]

end Dialect.Overlooks

namespace Declaration

variable {δ : Dialect} {g : Ref → Ref} (d : Declaration)

theorem isInterface_mapRefs : (d.mapRefs g).isInterface = d.isInterface := by
  cases hk : d.kind <;> simp [isInterface, mapRefs, DeclarationKind.mapRefs, hk]

theorem fields_mapRefs : (d.mapRefs g).fields = d.fields.map (Field.mapRefs g) := rfl

theorem methods_mapRefs : (d.mapRefs g).methods = d.methods.map (Method.mapRefs g) := rfl

theorem delegates_mapRefs : (d.mapRefs g).delegates = d.delegates.map (Delegate.mapRefs g) := rfl

theorem check_mapRefs : (d.mapRefs g).check = d.check := by
  have hfield : (if (d.mapRefs g).isInterface then (d.mapRefs g).fields.head? else none) =
      (if d.isInterface then d.fields.head? else none).map (Field.mapRefs g) := by
    rw [isInterface_mapRefs, fields_mapRefs, List.head?_map]
    split <;> rfl
  have hmethod : (d.mapRefs g).methods.find? (fun m => m.isConstructor && m.isAccessor) =
      (d.methods.find? fun m => m.isConstructor && m.isAccessor).map (Method.mapRefs g) := by
    rw [methods_mapRefs, List.find?_map]
    rfl
  simp only [check, hfield, hmethod]
  cases (if d.isInterface then d.fields.head? else none) with
  | some f => rfl
  | none => cases d.methods.find? fun m => m.isConstructor && m.isAccessor <;> rfl

theorem deferredFields_mapRefs (policy : InitPolicy) :
    (d.mapRefs g).deferredFields policy = (d.deferredFields policy).map (Field.mapRefs g) := by
  rw [deferredFields, fields_mapRefs, List.filter_map]
  rfl

theorem delegateLines_mapRefs (h : δ.Overlooks g) :
    (d.mapRefs g).delegates.map δ.delegateLine = d.delegates.map δ.delegateLine := by
  simp [delegates_mapRefs, Function.comp_def, h.delegateLine_mapRefs]

theorem leadingSections_mapRefs (h : δ.Overlooks g) : (d.mapRefs g).leadingSections δ = d.leadingSections δ := by
  have hfields : (d.mapRefs g).fields.map δ.fieldLine = d.fields.map δ.fieldLine := by
    simp [fields_mapRefs, Function.comp_def, h.fieldLine_mapRefs]
  have hinit : (d.mapRefs g).writeInitializer δ = d.writeInitializer δ := by
    funext l
    rw [writeInitializer, deferredFields_mapRefs, List.filterMap_map]
    rfl
  simp only [leadingSections_eq, d.delegateLines_mapRefs h, hfields, hinit]
  simp only [delegates_mapRefs, fields_mapRefs, deferredFields_mapRefs, List.isEmpty_map]

theorem methodSection_mapRefs (h : δ.Overlooks g) (m : Method) :
    (d.mapRefs g).methodSection δ (m.mapRefs g) = d.methodSection δ m := by
  have hmethod : (d.mapRefs g).writeMethod δ (m.mapRefs g) = d.writeMethod δ m := by
    rw [writeMethod_eq, Dialect.methodHeader, h.signature_mapRefs, writeMethod_eq]
    rfl
  have hconstructor : (d.mapRefs g).writeConstructor δ (m.mapRefs g) = d.writeConstructor δ m := by
    funext c
    rw [writeConstructor_eq, Dialect.constructorHeader, Method.mapRefs, h.params_map, writeConstructor_eq]
    rfl
  simp only [methodSection, hmethod, hconstructor, deferredFields_mapRefs, List.isEmpty_map]
  rfl

theorem writeClass_mapRefs (h : δ.Overlooks g) (l : Listing) : (d.mapRefs g).writeClass δ l = d.writeClass δ l := by
  have hmethods : (d.mapRefs g).methods.mapM ((d.mapRefs g).methodSection δ) = d.methods.mapM (d.methodSection δ) := by
    rw [methods_mapRefs, List.mapM_map]
    simp only [Function.comp_def, d.methodSection_mapRefs h]
  have hline : δ.classLine (d.mapRefs g) = δ.classLine d := by
    rw [Dialect.classLine, (h.inherited_mapRefs d).1, (h.inherited_mapRefs d).2]
    rfl
  simp only [writeClass_eq, hmethods, hline, d.leadingSections_mapRefs h]

theorem writeInterface_mapRefs (h : δ.Overlooks g) (l : Listing) :
    (d.mapRefs g).writeInterface δ l = d.writeInterface δ l := by
  have hsignatures : ((d.mapRefs g).methods.filter (!·.isConstructor)).map (δ.signature · ++ ";") =
      (d.methods.filter (!·.isConstructor)).map (δ.signature · ++ ";") := by
    rw [methods_mapRefs, List.filter_map, List.map_map]
    simp only [Function.comp_def, h.signature_mapRefs]
    rfl
  have hline : δ.interfaceLine (d.mapRefs g) = δ.interfaceLine d := by
    rw [Dialect.interfaceLine, (h.inherited_mapRefs d).2]
    rfl
  rw [writeInterface_eq, d.delegateLines_mapRefs h, hsignatures, hline, writeInterface_eq]

theorem writeFile_mapRefs (h : δ.Overlooks g) (imports : Imports) :
    (d.mapRefs g).writeFile δ imports = d.writeFile δ imports := by
  have htype (l : Listing) : (d.mapRefs g).writeType δ l = d.writeType δ l := by
    rw [writeType, writeType, isInterface_mapRefs, d.writeInterface_mapRefs h, d.writeClass_mapRefs h]
  simp only [writeFile, check_mapRefs, htype]
  rfl

end Declaration

end Stencil
