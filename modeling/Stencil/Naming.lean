import Stencil.Text.Case

/-!
Naming conventions: how names are cased, and how a name that is a reserved word is escaped.
-/
namespace Stencil

structure Naming where
  typeCase : String → String := id
  memberCase : String → String := id
  reserved : List String
  escape : String → String

namespace Naming

def isReserved (n : Naming) (name : String) : Bool := n.reserved.contains name

def safe (n : Naming) (name : String) : String := if n.isReserved name then n.escape name else name

def typeName (n : Naming) (name : String) : String := n.safe (n.typeCase name)

def memberName (n : Naming) (name : String) : String := n.safe (n.memberCase name)

end Naming

end Stencil
