import Stencil.Json.Number

/-!
Tokens of a JSON text. The scanner reads one character at a time, so that reading a text in two pieces
gives what reading it at once gives.
-/
namespace Stencil.Json

inductive Token
  | openObject
  | closeObject
  | openArray
  | closeArray
  | comma
  | colon
  | null
  | bool (b : Bool)
  | number (lexeme : String)
  | string (text : Option String)
deriving DecidableEq, Repr

/-- What the scanner is in the middle of. Characters and code units read so far are held backwards. -/
inductive Scan
  | between
  | word (read : List Char)
  | number (read : List Char)
  | string (units : List Nat)
  | escape (units : List Nat)
  | hex (units : List Nat) (count value : Nat)

def isSpace (c : Char) : Bool := c == ' ' || c == '\n' || c == '\t' || c == '\r'

def isNumberChar (c : Char) : Bool :=
  c.isDigit || c == '-' || c == '+' || c == '.' || c == 'e' || c == 'E'

def hexDigit? (c : Char) : Option Nat :=
  if c.isDigit then some (c.toNat - '0'.toNat)
  else if 'a' ≤ c ∧ c ≤ 'f' then some (c.toNat - 'a'.toNat + 10)
  else if 'A' ≤ c ∧ c ≤ 'F' then some (c.toNat - 'A'.toNat + 10)
  else none

def escaped? : Char → Option Nat
  | '"' => some 0x22
  | '\\' => some 0x5C
  | '/' => some 0x2F
  | 'b' => some 0x8
  | 'f' => some 0xC
  | 'n' => some 0xA
  | 'r' => some 0xD
  | 't' => some 0x9
  | _ => none

def isHighSurrogate (n : Nat) : Bool := 0xD800 ≤ n && n < 0xDC00

def isLowSurrogate (n : Nat) : Bool := 0xDC00 ≤ n && n < 0xE000

def addUnit (n : Nat) : List Nat → List Nat
  | [] => [n]
  | m :: units =>
    if isHighSurrogate m && isLowSurrogate n then
      (0x10000 + (m - 0xD800) * 0x400 + (n - 0xDC00)) :: units
    else n :: m :: units

def unitsText? (units : List Nat) : Option String :=
  if units.any (fun n => isHighSurrogate n || isLowSurrogate n) then none
  else some (.ofList (units.reverse.map Char.ofNat))

def word? (w : List Char) : Option Token :=
  if w = ['n', 'u', 'l', 'l'] then some .null
  else if w = ['t', 'r', 'u', 'e'] then some (.bool true)
  else if w = ['f', 'a', 'l', 's', 'e'] then some (.bool false)
  else none

def Scan.finish : Scan → Option (List Token)
  | .between => some []
  | .word read => (word? read.reverse).map ([·])
  | .number read =>
    if Number.isNumber read.reverse then some [.number (.ofList read.reverse)] else none
  | _ => none

def Scan.start (c : Char) : Option (List Token × Scan) :=
  if isSpace c then some ([], .between)
  else match c with
    | '\x7b' => some ([.openObject], .between)
    | '\x7d' => some ([.closeObject], .between)
    | '[' => some ([.openArray], .between)
    | ']' => some ([.closeArray], .between)
    | ',' => some ([.comma], .between)
    | ':' => some ([.colon], .between)
    | '"' => some ([], .string [])
    | c =>
      if c.isDigit || c == '-' then some ([], .number [c])
      else if c.isAlpha then some ([], .word [c])
      else none

def Scan.step (scan : Scan) (c : Char) : Option (List Token × Scan) :=
  match scan with
  | .between => start c
  | .word read =>
    if c.isAlpha then some ([], .word (c :: read))
    else do
      let done ← finish (.word read)
      let (more, next) ← start c
      some (done ++ more, next)
  | .number read =>
    if isNumberChar c then some ([], .number (c :: read))
    else do
      let done ← finish (.number read)
      let (more, next) ← start c
      some (done ++ more, next)
  | .string units =>
    if c = '"' then some ([.string (unitsText? units)], .between)
    else if c = '\\' then some ([], .escape units)
    else if c.toNat < 0x20 then none
    else some ([], .string (addUnit c.toNat units))
  | .escape units =>
    if c = 'u' then some ([], .hex units 0 0)
    else (escaped? c).map fun n => ([], .string (addUnit n units))
  | .hex units count value => do
    let d ← hexDigit? c
    let value := value * 16 + d
    some ([], if count = 3 then .string (addUnit value units) else .hex units (count + 1) value)

def Scan.feed (state : List Token × Scan) (c : Char) : Option (List Token × Scan) :=
  (state.2.step c).map fun (done, next) => (done.reverse ++ state.1, next)

def tokens? (s : List Char) : Option (List Token) := do
  let (read, scan) ← s.foldlM Scan.feed ([], .between)
  let last ← scan.finish
  some (read.reverse ++ last)

end Stencil.Json
