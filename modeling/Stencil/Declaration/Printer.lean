import Stencil.Declaration.Basic
import Stencil.Json.Printer

/-!
Declarations as JSON values. Members come in a fixed order, and those without a value are left out.
-/
namespace Stencil

open Json

def Json.memberIf (key : String) (value : Option Json) : List (String × Json) :=
  (value.map (Prod.mk key)).toList

def Primitive.jsonName : Primitive → String
  | int => "int"
  | uint => "uint"
  | number => "number"
  | boolean => "boolean"
  | any => "any"

def Handle.toJson (h : Handle) : Json := .natural h.index.toNat

namespace TypeExpr

mutual
def toJson : TypeExpr → Json
  | primitive p => record [("kind", text "primitive"), ("name", text p.jsonName)]
  | named r =>
    record ([("kind", text "class"), ("name", text r.name)] ++ memberIf "decl" (r.handle.map Handle.toJson))
  | vector t => record [("kind", text "vector"), ("element", t.toJson)]
  | function result params =>
    record ([("kind", text "function")] ++ memberIf "ret" (resultToJson result) ++
      [("params", .array (paramsToJson params))])

def resultToJson : Option TypeExpr → Option Json
  | none => none
  | some t => some t.toJson

def paramsToJson : List TypeExpr → List Json
  | [] => []
  | t :: ts => t.toJson :: paramsToJson ts
end

end TypeExpr

def Param.toJson (p : Param) : Json := record [("type", p.type.toJson), ("name", text p.name)]

def Field.toJson (f : Field) : Json :=
  record ([("visibility", text f.visibility.keyword), ("is_const", .bool f.isConst),
    ("is_static", .bool f.isStatic), ("type", f.type.toJson), ("name", text f.name)] ++
    memberIf "initializer" (f.initializer.map text))

def Delegate.toJson (d : Delegate) : Json :=
  record ([("name", text d.name)] ++ memberIf "return_type" (d.result.map TypeExpr.toJson) ++
    [("params", .array (d.params.map Param.toJson))])

def MethodFlags.members (f : MethodFlags) : List (String × Json) :=
  [("is_static", .bool f.isStatic), ("is_override", .bool f.isOverride),
    ("is_constructor", .bool f.isConstructor), ("is_getter", .bool f.isGetter),
    ("is_setter", .bool f.isSetter)]

def MethodFlags.toJson (f : MethodFlags) : Json := record f.members

def Listing.toJson (l : Listing) : Json := ofStrings l.toTexts

def Method.toJson (m : Method) : Json :=
  record ([("visibility", text m.visibility.keyword)] ++ m.flags.members ++ [("name", text m.name)] ++
    memberIf "return_type" (m.result.map TypeExpr.toJson) ++
    [("params", .array (m.params.map Param.toJson)), ("body", m.body.toJson)])

def DeclarationKind.members : DeclarationKind → List (String × Json)
  | classKind base => [("kind", text "class")] ++ memberIf "extends" (base.map TypeExpr.toJson)
  | interfaceKind => [("kind", text "interface")]

namespace Declaration

def toJson (d : Declaration) : Json :=
  record (d.kind.members ++ [("package", text d.package), ("name", text d.name),
    ("is_final", .bool d.isFinal), ("interfaces", .array (d.interfaces.map TypeExpr.toJson)),
    ("fields", .array (d.fields.map Field.toJson)), ("methods", .array (d.methods.map Method.toJson)),
    ("function_types", .array (d.delegates.map Delegate.toJson)),
    ("additional_imports", .array (d.extraImports.map TypeExpr.toJson))])

def listToJson (ds : List Declaration) : Json := .array (ds.map toJson)

end Declaration

end Stencil
