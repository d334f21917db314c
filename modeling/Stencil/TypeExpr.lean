/-!
Type expressions of member signatures, and the references to classes that they hold.
-/
namespace Stencil

inductive Primitive
  | int
  | uint
  | number
  | boolean
  | any
deriving DecidableEq, Repr

def Primitive.spelling : Primitive → String
  | int => "int"
  | uint => "uint"
  | number => "Number"
  | boolean => "Boolean"
  | any => "*"

structure Handle where
  index : UInt32
deriving DecidableEq, Repr

def Handle.label (h : Handle) : String := "#" ++ toString h.index.toNat

/-- A class or interface by name. Without a handle it is a built-in class or not linked yet. -/
structure Ref where
  name : String
  handle : Option Handle := none
deriving DecidableEq, Repr

inductive TypeExpr
  | primitive (p : Primitive)
  | named (ref : Ref)
  | vector (element : TypeExpr)
  | function (result : Option TypeExpr) (params : List TypeExpr)
deriving Repr

namespace TypeExpr

instance : Inhabited TypeExpr := ⟨primitive .any⟩

def isClassLike : TypeExpr → Bool
  | named _ => true
  | vector _ => true
  | _ => false

def element? : TypeExpr → Option TypeExpr
  | vector t => some t
  | _ => none

def handle? : TypeExpr → Option Handle
  | named r => r.handle
  | _ => none

mutual
def refs : TypeExpr → List Ref
  | primitive _ => []
  | named r => [r]
  | vector t => t.refs
  | function result params => resultRefs result ++ paramRefs params

def resultRefs : Option TypeExpr → List Ref
  | none => []
  | some t => t.refs

def paramRefs : List TypeExpr → List Ref
  | [] => []
  | t :: ts => t.refs ++ paramRefs ts
end

mutual
def traverse {m : Type → Type} [Monad m] (f : Ref → m Ref) : TypeExpr → m TypeExpr
  | primitive p => pure (primitive p)
  | named r => do return named (← f r)
  | vector t => do return vector (← t.traverse f)
  | function result params => do return function (← traverseResult f result) (← traverseParams f params)

def traverseResult {m : Type → Type} [Monad m] (f : Ref → m Ref) : Option TypeExpr → m (Option TypeExpr)
  | none => pure none
  | some t => do return some (← t.traverse f)

def traverseParams {m : Type → Type} [Monad m] (f : Ref → m Ref) : List TypeExpr → m (List TypeExpr)
  | [] => pure []
  | t :: ts => do return (← t.traverse f) :: (← traverseParams f ts)
end

end TypeExpr

end Stencil
