/-!
Sets of characters given by their edges, the ascending code points at which membership changes.
-/
namespace Stencil.Text

/-- Whether `n` lies between an odd-numbered edge and the next one. -/
def inside : List Nat → Nat → Bool
  | lo :: hi :: edges, n => if n < lo then false else if n < hi then true else inside edges n
  | _, _ => false

end Stencil.Text
