import Stencil.Declaration.Basic

/-!
Two walks over the types of a declaration, each with an order of its own: one collects the names of the references
without a handle, the other replaces references where they stand.
-/
namespace Stencil

namespace TypeExpr

mutual
def collect : TypeExpr → List String → List String
  | primitive _, names => names
  | named r, names => if r.handle.isNone && !names.contains r.name then names ++ [r.name] else names
  | vector t, names => t.collect names
  | function result params, names => collectParams params (collectResult result names)

def collectResult : Option TypeExpr → List String → List String
  | none, names => names
  | some t, names => t.collect names

def collectParams : List TypeExpr → List String → List String
  | [], names => names
  | t :: ts, names => collectParams ts (t.collect names)
end

end TypeExpr

def Declaration.unlinkedNames (d : Declaration) : List String :=
  (d.signatureTypes ++ d.extraImports ++ d.delegates.flatMap Delegate.types).foldl (fun names t => t.collect names) []

namespace TypeExpr

mutual
def mapRefs (f : Ref → Ref) : TypeExpr → TypeExpr
  | primitive p => primitive p
  | named r => named (f r)
  | vector t => vector (t.mapRefs f)
  | function result params => function (mapResultRefs f result) (mapParamRefs f params)

def mapResultRefs (f : Ref → Ref) : Option TypeExpr → Option TypeExpr
  | none => none
  | some t => some (t.mapRefs f)

def mapParamRefs (f : Ref → Ref) : List TypeExpr → List TypeExpr
  | [] => []
  | t :: ts => t.mapRefs f :: mapParamRefs f ts
end

end TypeExpr

section Replacement

variable (f : Ref → Ref)

def Param.mapRefs (p : Param) : Param := { p with type := p.type.mapRefs f }

def Field.mapRefs (x : Field) : Field := { x with type := x.type.mapRefs f }

def Method.mapRefs (x : Method) : Method :=
  { x with result := x.result.map (·.mapRefs f), params := x.params.map (·.mapRefs f) }

def Delegate.mapRefs (x : Delegate) : Delegate :=
  { x with result := x.result.map (·.mapRefs f), params := x.params.map (·.mapRefs f) }

def DeclarationKind.mapRefs : DeclarationKind → DeclarationKind
  | .classKind base => .classKind (base.map (·.mapRefs f))
  | .interfaceKind => .interfaceKind

def Declaration.mapRefs (d : Declaration) : Declaration :=
  { d with
    kind := d.kind.mapRefs f
    interfaces := d.interfaces.map (·.mapRefs f)
    fields := d.fields.map (·.mapRefs f)
    methods := d.methods.map (·.mapRefs f)
    delegates := d.delegates.map (·.mapRefs f)
    extraImports := d.extraImports.map (·.mapRefs f) }

end Replacement

end Stencil
