import Stencil.Emission.SourceText
import Stencil.Path

/-!
Emission: the source files of the declarations of a table.
-/
namespace Stencil

structure SourceFile where
  handle : Handle
  qualifiedName : String
  path : Path
  listing : Listing
  indent : Indent
deriving Repr

def SourceFile.content (f : SourceFile) : String := f.listing.render f.indent

def Declaration.outputPath (δ : Dialect) (root : Path) (d : Declaration) : Path :=
  let segments := ((d.package.toList.splitOn '.').filter (!·.isEmpty)).map String.ofList
  (segments.foldl Path.push root).push (d.name ++ "." ++ δ.extension)

namespace Table

variable (t : Table) (δ : Dialect)

def emitDeclaration (isStale : String → Path → Bool) (root : Path) (h : Handle) (d : Declaration) :
    Except EmitError (Option SourceFile) := do
  let path := d.outputPath δ root
  if isStale d.qualifiedName path then
    let listing ← d.render δ t
    return some ⟨h, d.qualifiedName, path, listing, δ.indent⟩
  else return none

def emit (isStale : String → Path → Bool) (root : Path) (h : Handle) :
    Except EmitError (Option SourceFile) :=
  match t.get? h with
  | some d => t.emitDeclaration δ isStale root h d
  | none => .error (.unknownDeclaration h)

def emitAll (isStale : String → Path → Bool) (root : Path) : Except EmitError (List SourceFile) := do
  let files ← t.entries.mapM fun (h, d) => t.emitDeclaration δ isStale root h d
  return files.filterMap id

end Table

end Stencil
