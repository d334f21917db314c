import Stencil.Declaration.Basic
import Stencil.Json.Decode
import Stencil.Json.Reader

/-!
Reading declarations from JSON. Records may be given as objects or as arrays of their fields; members
of an object that are not known are passed over.
-/
namespace Stencil

open Json

def Primitive.names : List (String × Primitive) :=
  [("int", .int), ("uint", .uint), ("number", .number), ("boolean", .boolean), ("any", .any)]

def Visibility.names : List (String × Visibility) :=
  [("public", .pub), ("protected", .prot), ("internal", .intern), ("private", .priv)]

def Handle.ofJson? (v : Json) : Option Handle := do
  let n ← v.natural?
  if n < UInt32.size then some ⟨.ofNat n⟩ else none

namespace TypeExpr

inductive Variant
  | primitive
  | named
  | vector
  | function

def Variant.names : List (String × Variant) :=
  [("primitive", .primitive), ("class", .named), ("vector", .vector), ("function", .function)]

def Variant.fieldNames : Variant → List String
  | primitive => ["name"]
  | named => ["name", "decl"]
  | vector => ["element"]
  | function => ["ret", "params"]

def variant? (tag : Json → Option Variant) : Json → Option (Variant × Fields)
  | .array (first :: items) => do
    let variant ← tag first
    return (variant, ← fieldsOfItems? variant.fieldNames items)
  | v => do
    let members ← v.members?
    match members.filter (·.1 == "kind") with
    | [(_, first)] => do
      let variant ← tag first
      return (variant, ← fieldsOfMembers? variant.fieldNames members)
    | _ => none

/-- A type in a value that was kept whole. The nesting of the value bounds that of the type. -/
def ofKept? (tag : Json → Option Variant) : Nat → Json → Option TypeExpr
  | 0, _ => none
  | depth + 1, v => do
    let inner := ofKept? (keptTag? Variant.names) depth
    match ← variant? tag v with
    | (.primitive, fields) => return primitive (← fields.required "name" (keptChoice? Primitive.names))
    | (.named, fields) =>
      return named ⟨← fields.required "name" string?, ← fields.optional "decl" Handle.ofJson?⟩
    | (.vector, fields) => return vector (← fields.required "element" inner)
    | (.function, fields) =>
      return function (← fields.optional "ret" inner)
        (← fields.withDefault "params" [] fun v =>
          match v with
          | .array items => items.mapM inner
          | _ => none)

def ofJson? (room : Nat) (v : Json) : Option TypeExpr :=
  if v.isSound room then ofKept? (tag? Variant.names) room v else none

end TypeExpr

def Param.ofJson? (room : Nat) (v : Json) : Option Param := do
  let (fields, room) ← record? ["type", "name"] room v
  return ⟨← fields.required "type" (TypeExpr.ofJson? room), ← fields.required "name" string?⟩

def Field.ofJson? (room : Nat) (v : Json) : Option Field := do
  let (fields, room) ←
    record? ["visibility", "is_const", "is_static", "type", "name", "initializer"] room v
  return {
    visibility := ← fields.withDefault "visibility" .pub (choice? Visibility.names room)
    isConst := ← fields.withDefault "is_const" false bool?
    isStatic := ← fields.withDefault "is_static" false bool?
    type := ← fields.required "type" (TypeExpr.ofJson? room)
    name := ← fields.required "name" string?
    initializer := ← fields.optional "initializer" string? }

def Delegate.ofJson? (room : Nat) (v : Json) : Option Delegate := do
  let (fields, room) ← record? ["name", "return_type", "params"] room v
  return {
    name := ← fields.required "name" string?
    result := ← fields.optional "return_type" (TypeExpr.ofJson? room)
    params := ← fields.withDefault "params" [] (items? Param.ofJson? room) }

namespace MethodFlags

def fieldNames : List String := ["is_static", "is_override", "is_constructor", "is_getter", "is_setter"]

def ofFields? (fields : Fields) : Option MethodFlags := do
  return {
    isStatic := ← fields.withDefault "is_static" false bool?
    isOverride := ← fields.withDefault "is_override" false bool?
    isConstructor := ← fields.withDefault "is_constructor" false bool?
    isGetter := ← fields.withDefault "is_getter" false bool?
    isSetter := ← fields.withDefault "is_setter" false bool? }

def ofJson? (room : Nat) (v : Json) : Option MethodFlags := do
  ofFields? (← record? fieldNames room v).1

end MethodFlags

def Listing.ofJson? (room : Nat) (v : Json) : Option Listing :=
  (items? (fun _ => string?) room v).map Listing.ofTexts

def Method.ofJson? (room : Nat) (v : Json) : Option Method := do
  let (fields, kept, room) ← v.keeping? ["visibility", "name", "return_type", "params", "body"] room
  return {
    visibility := ← fields.withDefault "visibility" .pub (choice? Visibility.names room)
    flags := ← MethodFlags.ofFields? (← fieldsOfMembers? MethodFlags.fieldNames kept)
    name := ← fields.required "name" string?
    result := ← fields.optional "return_type" (TypeExpr.ofJson? room)
    params := ← fields.withDefault "params" [] (items? Param.ofJson? room)
    body := ← fields.withDefault "body" {} (Listing.ofJson? room) }

namespace DeclarationKind

inductive Variant
  | classKind
  | interfaceKind

def Variant.names : List (String × Variant) := [("class", .classKind), ("interface", .interfaceKind)]

def ofMembers? (room : Nat) (kept : List (String × Json)) : Option DeclarationKind :=
  match kept.filter (·.1 == "kind") with
  | [(_, tag)] => do
    match ← keptTag? Variant.names tag with
    | .classKind =>
      let fields ← fieldsOfMembers? ["extends"] kept
      let type := TypeExpr.ofKept? (keptTag? TypeExpr.Variant.names) room
      return classKind (← fields.optional "extends" type)
    | .interfaceKind => return interfaceKind
  | _ => none

end DeclarationKind

namespace Declaration

def ofJson? (room : Nat) (v : Json) : Option Declaration := do
  let (fields, kept, room) ← v.keeping? ["package", "name", "is_final", "interfaces", "fields", "methods",
    "function_types", "additional_imports"] room
  return {
    kind := ← DeclarationKind.ofMembers? room kept
    package := ← fields.withDefault "package" "" string?
    name := ← fields.required "name" string?
    isFinal := ← fields.withDefault "is_final" false bool?
    interfaces := ← fields.withDefault "interfaces" [] (items? TypeExpr.ofJson? room)
    fields := ← fields.withDefault "fields" [] (items? Field.ofJson? room)
    methods := ← fields.withDefault "methods" [] (items? Method.ofJson? room)
    delegates := ← fields.withDefault "function_types" [] (items? Delegate.ofJson? room)
    extraImports := ← fields.withDefault "additional_imports" [] (items? TypeExpr.ofJson? room) }

def listOfJson? (v : Json) : Option (List Declaration) := items? ofJson? maxNesting v

def parseList? (text : String) : Option (List Declaration) := Json.parse? text >>= listOfJson?

end Declaration

end Stencil
