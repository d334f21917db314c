import Stencil.Emission.Error
import Stencil.Table.Basic

/-!
Imports: the packages that a declaration depends on, sorted by code points and without repetition.
-/
namespace Stencil

structure Imports where
  packages : List String := []
deriving DecidableEq, Repr

namespace Imports

def insertSorted (package : String) : List String → List String
  | [] => [package]
  | p :: ps =>
    if package < p then package :: p :: ps
    else if package = p then p :: ps
    else p :: insertSorted package ps

def add (i : Imports) (package : String) : Imports :=
  if package = "" then i else ⟨insertSorted package i.packages⟩

def ofPackages (packages : List String) : Imports := packages.foldl add {}

def merge (i other : Imports) : Imports := other.packages.foldl add i

def contains (i : Imports) (package : String) : Bool := i.packages.contains package

def size (i : Imports) : Nat := i.packages.length

def isEmpty (i : Imports) : Bool := i.packages.isEmpty

section Walk

variable (t : Table) (d : Declaration) (member : String)

def addRef (i : Imports) (r : Ref) : Except EmitError Imports :=
  match r.handle with
  | none => .ok i
  | some h =>
    match t.get? h with
    | some target => .ok (i.add target.package)
    | none => .error (.unresolvedType d.qualifiedName member r.name h)

mutual
def addType (i : Imports) : TypeExpr → Except EmitError Imports
  | .primitive _ => .ok i
  | .named r => addRef t d member i r
  | .vector element => addType i element
  | .function result params => do addParams (← addResult i result) params

def addResult (i : Imports) : Option TypeExpr → Except EmitError Imports
  | none => .ok i
  | some type => addType i type

def addParams (i : Imports) : List TypeExpr → Except EmitError Imports
  | [] => .ok i
  | type :: types => do addParams (← addType i type) types
end

end Walk

end Imports

def Declaration.imports (t : Table) (d : Declaration) : Except EmitError Imports := do
  let addTypes (member : String) (i : Imports) (types : List TypeExpr) := types.foldlM (Imports.addType t d member) i
  let i ← addTypes "extends" {} d.base?.toList
  let i ← addTypes "implements" i d.interfaces
  let i ← d.fields.foldlM (fun i f => Imports.addType t d f.name i f.type) i
  let i ← d.methods.foldlM (fun i m => addTypes m.name i m.types) i
  let i ← d.delegates.foldlM (fun i g => addTypes g.name i g.types) i
  addTypes "additional import" i d.extraImports

end Stencil
