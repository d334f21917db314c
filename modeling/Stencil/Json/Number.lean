/-!
Numbers of JSON: their grammar, the naturals among them and the range of a double.
-/
namespace Stencil.Json.Number

structure Parts where
  negative : Bool
  whole : List Char
  fraction : List Char
  negativeExponent : Bool
  exponent : List Char

def digits (s : List Char) : List Char := s.takeWhile Char.isDigit

def afterDigits (s : List Char) : List Char := s.dropWhile Char.isDigit

def sign : List Char → Bool × List Char
  | '-' :: s => (true, s)
  | s => (false, s)

def exponentSign : List Char → Bool × List Char
  | '-' :: s => (true, s)
  | '+' :: s => (false, s)
  | s => (false, s)

def isWhole (ds : List Char) : Bool := ds == ['0'] || (!ds.isEmpty && ds.head? != some '0')

def fraction? : List Char → Option (List Char × List Char)
  | '.' :: s => if (digits s).isEmpty then none else some (digits s, afterDigits s)
  | s => some ([], s)

def exponent? : List Char → Option (Bool × List Char)
  | [] => some (false, [])
  | c :: s =>
    let (negative, s) := exponentSign s
    if (c == 'e' || c == 'E') && !s.isEmpty && s.all Char.isDigit then some (negative, s) else none

def parts? (s : List Char) : Option Parts := do
  let (negative, s) := sign s
  if !isWhole (digits s) then none
  let (fraction, rest) ← fraction? (afterDigits s)
  let (negativeExponent, exponent) ← exponent? rest
  some ⟨negative, digits s, fraction, negativeExponent, exponent⟩

def isNumber (s : List Char) : Bool := (parts? s).isSome

def valueFrom (n : Nat) (ds : List Char) : Nat := ds.foldl (fun n c => n * 10 + (c.toNat - '0'.toNat)) n

def natural? (lexeme : String) : Option Nat :=
  let ds := lexeme.toList
  if !ds.isEmpty && ds.all Char.isDigit && valueFrom 0 ds < UInt64.size then some (valueFrom 0 ds) else none

def fill (n : Nat) : List Char → Nat × Nat
  | [] => (n, 0)
  | d :: ds => if valueFrom n [d] < UInt64.size then fill (valueFrom n [d]) ds else (n, ds.length + 1)

/-- The nearest natural with at most 53 significant bits, a half to the even neighbour. -/
def round53 (n : Nat) : Nat :=
  if n < Nat.pow 2 53 then n
  else
    let unit := Nat.pow 2 (n.log2 - 52)
    let q := n / unit
    let r := n % unit
    (if 2 * r > unit ∨ (2 * r = unit ∧ q % 2 = 1) then q + 1 else q) * unit

/-- The number read as a rounded significand times a rounded power of ten is beyond the doubles. -/
def Parts.isHuge (p : Parts) : Bool :=
  let (n, left) := fill 0 p.whole
  let (m, dropped) := fill n p.fraction
  let exponent : Int := valueFrom 0 p.exponent
  let scale : Int :=
    (if p.negativeExponent then -exponent else exponent) + left - (p.fraction.length - dropped : Nat)
  m ≠ 0 ∧ 0 ≤ scale ∧
    (308 < scale ∨ Nat.pow 2 1024 ≤ round53 (round53 m * round53 (Nat.pow 10 scale.toNat)))

def isHuge (lexeme : String) : Bool := (parts? lexeme.toList).any Parts.isHuge

end Stencil.Json.Number
