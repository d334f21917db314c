import Stencil.TypeExpr

/-!
Why a declaration cannot be written as source text.
-/
namespace Stencil

inductive EmitError
  | unresolvedType (declaration member typeName : String) (handle : Handle)
  | unknownDeclaration (handle : Handle)
  | interfaceField (declaration field : String)
  | accessorConstructor (declaration method : String)
  | unknownDelegation (declaration line : String)
deriving DecidableEq, Repr

namespace EmitError

def message : EmitError → String
  | unresolvedType declaration member typeName handle =>
    "type '" ++ typeName ++ "' used by '" ++ declaration ++ "' (" ++ member ++
      ") points at missing declaration " ++ handle.label
  | unknownDeclaration handle => "declaration " ++ handle.label ++ " does not exist"
  | interfaceField declaration field =>
    "interface '" ++ declaration ++ "' declares field '" ++ field ++ "'"
  | accessorConstructor declaration method =>
    "method '" ++ method ++ "' of '" ++ declaration ++ "' is both a constructor and an accessor"
  | unknownDelegation declaration line =>
    "constructor of '" ++ declaration ++ "' starts with an unknown delegation marker: `" ++ line ++ "`"

def code : EmitError → String
  | unresolvedType .. => "crossgen::unresolved_type"
  | unknownDeclaration _ => "crossgen::unknown_declaration"
  | interfaceField .. => "crossgen::interface_field"
  | accessorConstructor .. => "crossgen::accessor_constructor"
  | unknownDelegation .. => "crossgen::delegation_marker"

def help? : EmitError → Option String
  | unresolvedType .. => some "every user type must be linked to the declaration that defines it"
  | interfaceField .. => some "interfaces may only declare method signatures"
  | unknownDelegation .. =>
    some "delegating calls must be encoded as `this-call(...)` or `super-call(...)`"
  | _ => none

end EmitError

end Stencil
