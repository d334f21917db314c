import Stencil.Initializer
import Stencil.Naming

/-!
Dialects: the decisions by which the languages of the brace family differ, and the pieces of source text
that follow from them.
-/
namespace Stencil

structure Loop where
  itemType : String
  item : String
  collectionType : String
  collection : String
  body : Listing

structure Dialect where
  language : String
  extension : String
  naming : Naming
  indent : Indent := .standard
  delimiters : Delimiters := .braces
  policy : InitPolicy := .deferConstructions
  getterName : String → String
  setterName : String → String
  builtin? : String → Option String := fun _ => none
  primitive : Primitive → String
  testedClass : String → String
  vector : String → String
  function : Option String → List String → String
  preamble : List String := []
  importKeyword : String
  finalKeyword : String
  constKeyword : TypeExpr → String
  writeLoop : Listing → Loop → Listing
  virtualKeyword : Option String := some "virtual"
  staticKeyword : String := "static"
  overrideKeyword : String := "override"
  nullLiteral : String := "null"
  voidType : String := "void"
  selfCall : String := "this"
  baseCall : String := "base"
  initializerMethod : String := "__internalInitializeFields"

namespace Dialect

variable (δ : Dialect)

def identifier (name : String) : String := δ.naming.memberName name

def namespaceName (package : String) : String :=
  ".".intercalate ((package.toList.splitOn '.').map fun s => δ.naming.safe (.ofList s))

def className (name : String) : String := (δ.builtin? name).getD (δ.naming.typeName name)

/-- The spelling of a reference. A declared class keeps its name even where a built-in class has it too. -/
def refName (r : Ref) : String :=
  match r.handle with
  | some _ => δ.naming.typeName r.name
  | none => δ.className r.name

mutual
def type : TypeExpr → String
  | .primitive p => δ.primitive p
  | .named r => δ.refName r
  | .vector t => δ.vector (type t)
  | .function result params => δ.function (resultType? result) (types params)

def resultType? : Option TypeExpr → Option String
  | none => none
  | some t => some (type t)

def types : List TypeExpr → List String
  | [] => []
  | t :: ts => type t :: types ts
end

def returnType (result : Option TypeExpr) : String := (result.map δ.type).getD δ.voidType

def importStatement (name : String) : String := δ.importKeyword ++ " " ++ name ++ ";"

def namespaceHeader (name : String) : String := "namespace " ++ name

def classHeader (name : String) (isFinal : Bool) : String :=
  "public " ++ (if isFinal then δ.finalKeyword ++ " " else "") ++ "class " ++ name

def interfaceHeader (name : String) : String := "public interface " ++ name

def inheritance? (base : Option String) (interfaces : List String) : Option String :=
  match base.toList ++ interfaces with
  | [] => none
  | parents => some (" : " ++ ", ".intercalate parents)

def delegate (name result params : String) : String :=
  "public delegate " ++ result ++ " " ++ name ++ "(" ++ params ++ ");"

def delegationClause (call : String) : String := " : " ++ call

def callStatement (method : String) : String := method ++ "();"

def assignment (target value : String) : String := target ++ " = " ++ value ++ ";"

def params (ps : List Param) : String :=
  ", ".intercalate (ps.map fun p => δ.type p.type ++ " " ++ δ.identifier p.name)

def construct (name args : String) : String := "new " ++ δ.className name ++ "(" ++ args ++ ")"

def constructVector (element : TypeExpr) (args : String) : String :=
  "new " ++ δ.vector (δ.type element) ++ "(" ++ args ++ ")"

def typeTest (value name : String) : String := value ++ " is " ++ δ.testedClass name

end Dialect

end Stencil
