/-!
The indentation of one nesting level.
-/
namespace Stencil

inductive Indent
  | spaces (width : Nat)
  | tab
deriving DecidableEq, Repr

namespace Indent

def ofWidth : Nat → Indent
  | 0 => tab
  | n => spaces n

/-- Widths other than one to four and eight are written as four spaces. -/
def text : Indent → String
  | spaces 1 => " "
  | spaces 2 => "  "
  | spaces 3 => "   "
  | spaces 8 => "        "
  | spaces _ => "    "
  | tab => "\t"

def standard : Indent := spaces 4

def compact : Indent := spaces 2

instance : Inhabited Indent := ⟨standard⟩

end Indent

end Stencil
