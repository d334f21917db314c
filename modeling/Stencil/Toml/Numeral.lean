/-!
Numbers of TOML. An integer is kept as it is written and gets its value when it is asked for; until then only
its shape is known to be right.
-/
namespace Stencil.Toml

structure Numeral where
  base : Nat
  text : List Char
deriving DecidableEq, Repr

def isHexDigit (c : Char) : Bool := c.isDigit || ('a' ≤ c && c ≤ 'f') || ('A' ≤ c && c ≤ 'F')

def digitValue (c : Char) : Nat :=
  if c.isDigit then c.toNat - '0'.toNat
  else if c.isUpper then c.toNat - 'A'.toNat + 10
  else c.toNat - 'a'.toNat + 10

def digitsValue (base : Nat) (ds : List Char) : Nat := ds.foldl (fun n c => n * base + digitValue c) 0

def sign : List Char → Int × List Char
  | '-' :: s => (-1, s)
  | '+' :: s => (1, s)
  | s => (1, s)

def unsigned (s : List Char) : List Char := (sign s).2

namespace Numeral

def value? (n : Numeral) : Option Int :=
  let (sign, ds) := sign n.text
  if !ds.isEmpty && ds.all (fun c => isHexDigit c && digitValue c < n.base) then
    some (sign * digitsValue n.base ds)
  else none

def marksOk (isDigit : Char → Bool) (s : List Char) : Bool :=
  let parts := s.splitOn '_'
  parts.dropLast.all (·.getLast?.any isDigit) && parts.tail.all (·.head?.any isDigit)

def withoutMarks (s : List Char) : List Char := s.filter (· ≠ '_')

def ofBase? (base : Nat) (s : List Char) : Option Numeral :=
  if s.all (fun c => c == '_' || (isHexDigit c && digitValue c < base)) && marksOk isHexDigit s then
    some ⟨base, withoutMarks s⟩
  else none

def isFloatMark (c : Char) : Bool := c == '.' || c == 'e' || c == 'E'

/-- Decimal digits without a leading zero. What stands behind the first underscore is only looked at around
underscores. -/
def ofDecimal? (s : List Char) : Option Numeral :=
  let digits := unsigned s
  match digits.dropWhile Char.isDigit with
  | [] =>
    if digits == ['0'] || (!digits.isEmpty && digits.head? != some '0') then some ⟨10, s⟩ else none
  | '_' :: rest =>
    if digits.head? != some '0' && !rest.any (fun c => c == ' ' || isFloatMark c) && marksOk isHexDigit s then
      some ⟨10, withoutMarks s⟩
    else none
  | _ => none

def parse? : List Char → Option Numeral
  | '0' :: 'x' :: s => ofBase? 16 s
  | '0' :: 'o' :: s => ofBase? 8 s
  | '0' :: 'b' :: s => ofBase? 2 s
  | s => ofDecimal? s

end Numeral

namespace Float

def isRun (c : Char) : Bool := c.isDigit || c == '_'

def run? (s : List Char) : Option (List Char) :=
  if (s.takeWhile isRun).any Char.isDigit then some (s.dropWhile isRun) else none

def hasLeadingZero (s : List Char) : Bool :=
  s.head? == some '0' && ((s.takeWhile isRun).filter Char.isDigit).length > 1

def fraction? : List Char → Option (List Char)
  | '.' :: s => run? s
  | s => some s

def exponent? : List Char → Option (List Char)
  | c :: s => if c == 'e' || c == 'E' then run? (unsigned s) else some (c :: s)
  | [] => some []

def isDecimal (s : List Char) : Bool :=
  let digits := unsigned s
  digits.any Numeral.isFloatMark && !hasLeadingZero digits && Numeral.marksOk Char.isDigit s &&
    (run? digits >>= fraction? >>= exponent?) == some []

def isFloat (s : List Char) : Bool :=
  unsigned s == ['i', 'n', 'f'] || unsigned s == ['n', 'a', 'n'] || isDecimal s

end Float

end Stencil.Toml
