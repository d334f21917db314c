import Stencil.Listing.Basic
import Stencil.TypeExpr

/-!
Declarations of classes and interfaces with their members.
-/
namespace Stencil

inductive Visibility
  | pub
  | prot
  | intern
  | priv
deriving DecidableEq, Repr

def Visibility.keyword : Visibility → String
  | pub => "public"
  | prot => "protected"
  | intern => "internal"
  | priv => "private"

structure Field where
  visibility : Visibility := .pub
  isConst : Bool := false
  isStatic : Bool := false
  type : TypeExpr
  name : String
  initializer : Option String := none
deriving Repr

structure Param where
  type : TypeExpr
  name : String
deriving Repr

structure MethodFlags where
  isStatic : Bool := false
  isOverride : Bool := false
  isConstructor : Bool := false
  isGetter : Bool := false
  isSetter : Bool := false
deriving DecidableEq, Repr

structure Method where
  visibility : Visibility := .pub
  flags : MethodFlags := {}
  name : String
  result : Option TypeExpr := none
  params : List Param := []
  body : Listing := {}
deriving Repr

namespace Method

def isConstructor (m : Method) : Bool := m.flags.isConstructor

def isAccessor (m : Method) : Bool := m.flags.isGetter || m.flags.isSetter

def types (m : Method) : List TypeExpr := m.result.toList ++ m.params.map Param.type

end Method

structure Delegate where
  name : String
  result : Option TypeExpr := none
  params : List Param := []
deriving Repr

def Delegate.types (d : Delegate) : List TypeExpr := d.result.toList ++ d.params.map Param.type

inductive DeclarationKind
  | classKind (base : Option TypeExpr)
  | interfaceKind
deriving Repr

structure Declaration where
  kind : DeclarationKind
  package : String := ""
  name : String
  isFinal : Bool := false
  interfaces : List TypeExpr := []
  fields : List Field := []
  methods : List Method := []
  delegates : List Delegate := []
  /-- Types that only the bodies mention. -/
  extraImports : List TypeExpr := []
deriving Repr

namespace Declaration

def isInterface (d : Declaration) : Bool :=
  match d.kind with
  | .classKind _ => false
  | .interfaceKind => true

def base? (d : Declaration) : Option TypeExpr :=
  match d.kind with
  | .classKind base => base
  | .interfaceKind => none

def withBase (d : Declaration) (type : TypeExpr) : Declaration :=
  match d.kind with
  | .classKind _ => { d with kind := .classKind (some type) }
  | .interfaceKind => d

def qualifiedName (d : Declaration) : String :=
  if d.package = "" then d.name else d.package ++ "." ++ d.name

def signatureTypes (d : Declaration) : List TypeExpr :=
  d.base?.toList ++ d.interfaces ++ d.fields.map Field.type ++ d.methods.flatMap Method.types

end Declaration

section Traversal

variable {m : Type → Type} [Monad m] (f : Ref → m Ref)

def Param.traverse (p : Param) : m Param := do return { p with type := ← p.type.traverse f }

def Field.traverse (x : Field) : m Field := do return { x with type := ← x.type.traverse f }

def Method.traverse (x : Method) : m Method := do
  return { x with result := ← x.result.mapM (·.traverse f), params := ← x.params.mapM (·.traverse f) }

def Delegate.traverse (x : Delegate) : m Delegate := do
  return { x with result := ← x.result.mapM (·.traverse f), params := ← x.params.mapM (·.traverse f) }

def DeclarationKind.traverse : DeclarationKind → m DeclarationKind
  | .classKind base => do return .classKind (← base.mapM (·.traverse f))
  | .interfaceKind => pure .interfaceKind

def Declaration.traverse (d : Declaration) : m Declaration := do
  let kind ← d.kind.traverse f
  let interfaces ← d.interfaces.mapM (·.traverse f)
  let fields ← d.fields.mapM (·.traverse f)
  let methods ← d.methods.mapM (·.traverse f)
  let extraImports ← d.extraImports.mapM (·.traverse f)
  let delegates ← d.delegates.mapM (·.traverse f)
  return { d with kind, interfaces, fields, methods, extraImports, delegates }

end Traversal

end Stencil
