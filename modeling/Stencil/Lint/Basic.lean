import Stencil.Lint.Diagnostic
import Stencil.Table.Basic

/-!
Lints: checks of declarations before anything is written.
-/
namespace Stencil

structure Lint where
  name : String
  description : String
  check : Table → Declaration → List Diagnostic

def Declaration.memberPath (d : Declaration) (member : String) : String := d.qualifiedName ++ "." ++ member

namespace Lint

def interfaceFields : Lint where
  name := "interface-fields"
  description := "Interfaces may not declare fields"
  check := fun _ d =>
    if d.isInterface then
      d.fields.map fun f => {
        severity := .error
        lint := "interface-fields"
        message := "interface '" ++ d.name ++ "' declares field '" ++ f.name ++ "'"
        location := some (d.memberPath f.name) }
    else []

def interfaceMethodMessage? (d : Declaration) (m : Method) : Option String :=
  if m.isConstructor then some ("interface '" ++ d.name ++ "' declares a constructor")
  else if m.body.firstStatement?.isSome then
    some ("body of interface method '" ++ m.name ++ "' is ignored")
  else none

def interfaceBodies : Lint where
  name := "interface-bodies"
  description := "Interfaces may only declare method signatures"
  check := fun _ d =>
    if d.isInterface then
      d.methods.filterMap fun m => (interfaceMethodMessage? d m).map fun message => {
        severity := .warning
        lint := "interface-bodies"
        message
        location := some (d.memberPath m.name) }
    else []

def accessorConstructor : Lint where
  name := "accessor-constructor"
  description := "A constructor cannot be a getter or setter"
  check := fun _ d =>
    (d.methods.filter fun m => m.isConstructor && m.isAccessor).map fun m => {
      severity := .error
      lint := "accessor-constructor"
      message := "method '" ++ m.name ++ "' of '" ++ d.name ++ "' is both a constructor and an accessor"
      location := some (d.memberPath m.name) }

def dangling? (t : Table) (r : Ref) : Option Handle := r.handle.filter fun h => (t.get? h).isNone

mutual
def collectDangling (t : Table) : TypeExpr → List (String × Handle)
  | .primitive _ => []
  | .named r => ((dangling? t r).map (Prod.mk r.name)).toList
  | .vector element => collectDangling t element
  | .function result params => collectResult t result ++ collectParams t params

def collectResult (t : Table) : Option TypeExpr → List (String × Handle)
  | none => []
  | some type => collectDangling t type

def collectParams (t : Table) : List TypeExpr → List (String × Handle)
  | [] => []
  | type :: types => collectDangling t type ++ collectParams t types
end

def danglingTypes (t : Table) (d : Declaration) (member : String) (type : TypeExpr) : List Diagnostic :=
  (collectDangling t type).map fun entry => {
    severity := .error
    lint := "unresolved-types"
    message := "type '" ++ entry.1 ++ "' points at missing declaration " ++ entry.2.label
    location := some (d.memberPath member) }

def unresolvedTypes : Lint where
  name := "unresolved-types"
  description := "Every user type must point at an existing declaration"
  check := fun t d =>
    d.base?.toList.flatMap (danglingTypes t d "extends") ++
    d.interfaces.flatMap (danglingTypes t d "implements") ++
    d.fields.flatMap (fun f => danglingTypes t d f.name f.type) ++
    d.methods.flatMap (fun m => m.types.flatMap (danglingTypes t d m.name)) ++
    d.delegates.flatMap (fun g => g.types.flatMap (danglingTypes t d g.name)) ++
    d.extraImports.flatMap (danglingTypes t d "imports")

def fieldNameMessage? (seen methods : List String) (name : String) : Option String :=
  if seen.contains name then some ("field '" ++ name ++ "' is declared more than once")
  else if methods.contains name then some ("field '" ++ name ++ "' has the same name as a method")
  else none

def takenNames (methods : List String) : List String → List String → List (String × String)
  | _, [] => []
  | seen, name :: names =>
    ((fieldNameMessage? seen methods name).map (Prod.mk name)).toList ++
      takenNames methods (name :: seen) names

def duplicateMembers : Lint where
  name := "duplicate-members"
  description := "Detect fields declared twice or shadowing a method"
  check := fun _ d =>
    let methods := (d.methods.filter (!·.isConstructor)).map Method.name
    (takenNames methods [] (d.fields.map Field.name)).map fun (name, message) => {
      severity := .error
      lint := "duplicate-members"
      message
      location := some (d.memberPath name) }

def builtin : List Lint :=
  [interfaceFields, interfaceBodies, accessorConstructor, unresolvedTypes, duplicateMembers]

end Lint

def Table.validate (t : Table) (lints : List Lint) : List Diagnostic :=
  t.declarations.flatMap fun d => lints.flatMap fun lint => lint.check t d

end Stencil
