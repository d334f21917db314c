import Stencil.Emission.Constructor
import Stencil.Imports

/-!
The source text of one declaration as a listing.
-/
namespace Stencil

namespace Dialect

variable (δ : Dialect)

def methodName (m : Method) : String :=
  if m.flags.isGetter then δ.identifier (δ.getterName m.name)
  else if m.flags.isSetter then δ.identifier (δ.setterName m.name)
  else δ.identifier m.name

def signature (m : Method) : String :=
  δ.returnType m.result ++ " " ++ δ.methodName m ++ "(" ++ params δ m.params ++ ")"

def modifier? (isFinal : Bool) (m : Method) : Option String :=
  if m.flags.isStatic then some δ.staticKeyword
  else if m.flags.isOverride then some δ.overrideKeyword
  else if m.visibility ≠ .priv ∧ !isFinal then δ.virtualKeyword
  else none

def delegateLine (g : Delegate) : String :=
  delegate (δ.naming.typeName g.name) (δ.returnType g.result) (params δ g.params)

def initializerHeader : String :=
  Visibility.priv.keyword ++ " " ++ δ.voidType ++ " " ++ δ.initializerMethod ++ "()"

def assignmentLine? (f : Field) : Option String :=
  f.initializer.map (assignment (δ.identifier f.name))

end Dialect

namespace Listing

def write? (l : Listing) (text? : Option String) : Listing := text?.elim l l.write

def writeLines (l : Listing) (texts : List String) : Listing := texts.foldl writeLine l

def writeParagraph (l : Listing) (texts : List String) : Listing :=
  if texts.isEmpty then l else (l.writeLines texts).blankLine

def block (l : Listing) (body : Listing → Listing) : Listing := (body l.openBlock).closeBlock

def writeBlock (l : Listing) (header : String) (body : Listing → Listing) : Listing :=
  (l.writeLine header).block body

def writeSections (l : Listing) (sections : List (Listing → Listing)) : Listing :=
  (sections.foldl (fun (l, started) write => (write (if started then l.blankLine else l), true)) (l, false)).1

end Listing

namespace Dialect

variable (δ : Dialect)

def writeInterfaceHeader (d : Declaration) (l : Listing) : Listing :=
  let l := l.write (interfaceHeader (δ.naming.typeName d.name))
  (l.write? (inheritance? none (d.interfaces.map δ.type))).endLine

def writeClassHeader (d : Declaration) (l : Listing) : Listing :=
  let l := l.write (δ.classHeader (δ.naming.typeName d.name) d.isFinal)
  (l.write? (inheritance? (d.base?.map δ.type) (d.interfaces.map δ.type))).endLine

def writeField (f : Field) (l : Listing) : Listing :=
  let l := (l.write f.visibility.keyword).write " "
  let l :=
    if f.isConst then (l.write (δ.constKeyword f.type)).write " "
    else if f.isStatic then (l.write δ.staticKeyword).write " "
    else l
  let l := l.write (δ.type f.type ++ " " ++ δ.identifier f.name)
  let l := l.write? ((f.initializer.filter fun _ => f.isInlineSafe δ.policy).map (" = " ++ ·))
  l.writeLine ";"

def writeConstructorHeader (name : String) (m : Method) (clause : Option String) (l : Listing) : Listing :=
  let l := l.write m.visibility.keyword
  let l := l.write (" " ++ δ.naming.typeName name ++ "(" ++ params δ m.params ++ ")")
  (l.write? clause).endLine

def writeMethodHeader (isFinal : Bool) (m : Method) (l : Listing) : Listing :=
  let l := (l.write m.visibility.keyword).write " "
  let l := (δ.modifier? isFinal m).elim l fun modifier => (l.write modifier).write " "
  l.writeLine (δ.signature m)

end Dialect

namespace Declaration

def deferredFields (policy : InitPolicy) (d : Declaration) : List Field :=
  d.fields.filter (·.isDeferred policy)

def check (d : Declaration) : Except EmitError Unit :=
  match (if d.isInterface then d.fields.head? else none) with
  | some field => .error (.interfaceField d.qualifiedName field.name)
  | none =>
    match d.methods.find? (fun m => m.isConstructor && m.isAccessor) with
    | some m => .error (.accessorConstructor d.qualifiedName m.name)
    | none => .ok ()

variable (δ : Dialect) (d : Declaration)

def writeMethod (m : Method) (l : Listing) : Listing :=
  (δ.writeMethodHeader d.isFinal m l).block (·.splice m.body)

def writeConstructor (m : Method) (c : ConstructorBody) (l : Listing) : Listing :=
  (δ.writeConstructorHeader d.name m c.clause l).block (·.splice c.body)

def methodSection (m : Method) : Except EmitError (Listing → Listing) := do
  if m.isConstructor then
    let hasDeferred := !(d.deferredFields δ.policy).isEmpty
    let c ← ConstructorBody.ofListing δ d.qualifiedName m.body hasDeferred
    return d.writeConstructor δ m c
  else return d.writeMethod δ m

def writeInitializer (l : Listing) : Listing :=
  l.writeBlock δ.initializerHeader
    (·.writeLines ((d.deferredFields δ.policy).filterMap δ.assignmentLine?))

def leadingSections : List (Listing → Listing) :=
  (if d.delegates.isEmpty then [] else [(·.writeLines (d.delegates.map δ.delegateLine))]) ++
  (if d.fields.isEmpty then [] else [fun l => d.fields.foldl (fun l f => δ.writeField f l) l]) ++
  (if (d.deferredFields δ.policy).isEmpty then [] else [d.writeInitializer δ])

def writeClass (l : Listing) : Except EmitError Listing := do
  let methods ← d.methods.mapM (d.methodSection δ)
  return (δ.writeClassHeader d l).block (·.writeSections (d.leadingSections δ ++ methods))

def writeInterface (l : Listing) : Listing :=
  let l := l.writeParagraph (d.delegates.map δ.delegateLine)
  (δ.writeInterfaceHeader d l).block
    (·.writeLines ((d.methods.filter (!·.isConstructor)).map (δ.signature · ++ ";")))

def writeType (l : Listing) : Except EmitError Listing :=
  if d.isInterface then return d.writeInterface δ l else d.writeClass δ l

def writeFile (imports : Imports) : Except EmitError Listing := do
  d.check
  let l : Listing := { delimiters := δ.delimiters }
  let l := l.writeParagraph δ.preamble
  let l := l.writeParagraph (imports.packages.map fun p => δ.importStatement (δ.namespaceName p))
  if d.package = "" then d.writeType δ l
  else
    let l := (l.writeLine (Dialect.namespaceHeader (δ.namespaceName d.package))).openBlock
    return (← d.writeType δ l).closeBlock

def render (t : Table) : Except EmitError Listing := do d.writeFile δ (← d.imports t)

end Declaration

end Stencil
