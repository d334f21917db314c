import Stencil.Declaration.Basic
import Stencil.Text.Numeric

/-!
Initializers of fields: which of them may stand beside the field, and which are deferred to a method that
every constructor calls.
-/
namespace Stencil

inductive InitPolicy
  | inline
  | deferConstructions
  | deferNonLiteral
deriving DecidableEq, Repr

instance : Inhabited InitPolicy := ⟨.deferConstructions⟩

def InitPolicy.name : InitPolicy → String
  | inline => "inline"
  | deferConstructions => "defer-constructions"
  | deferNonLiteral => "defer-non-literal"

def InitPolicy.names : List (String × InitPolicy) :=
  [inline, deferConstructions, deferNonLiteral].map fun p => (p.name, p)

namespace Initializer

def isQuote (c : Char) : Bool := c == '"' || c == '\''

mutual
def code : List Char → List Char
  | [] => []
  | c :: cs => if isQuote c then afterLiteral c cs else c :: code cs

/-- The code that follows a literal, when the text is inside of it. A backslash takes the next character
with it. -/
def afterLiteral (quote : Char) : List Char → List Char
  | [] => []
  | [c] => if c = quote then [' '] else []
  | c :: e :: cs =>
    if c = '\\' then afterLiteral quote cs
    else if c = quote then ' ' :: code (e :: cs)
    else afterLiteral quote (e :: cs)
end

def words (s : List Char) : List (List Char) := s.splitOnP (!Text.isWordChar ·)

def hasConstruction (expr : String) : Bool := (words (code expr.toList)).any (· == ['n', 'e', 'w'])

def isQuoted (s : List Char) : Bool :=
  match s with
  | q :: _ :: _ => isQuote q && s.getLast? == some q
  | _ => false

def isKeyword (s : List Char) : Bool := s == "true".toList || s == "false".toList || s == "null".toList

def isHexDigit (c : Char) : Bool := c.isDigit || ('a' ≤ c && c ≤ 'f') || ('A' ≤ c && c ≤ 'F')

def isSuffix (c : Char) : Bool := c ∈ ['f', 'F', 'd', 'D', 'u', 'U', 'l', 'L']

def isExponent : List Char → Bool
  | [] => true
  | c :: s =>
    let s := match s with
      | '+' :: t => t
      | '-' :: t => t
      | t => t
    (c == 'e' || c == 'E') && !s.isEmpty && s.all Char.isDigit

def isDecimal (s : List Char) : Bool :=
  let whole := s.takeWhile Char.isDigit
  match s.dropWhile Char.isDigit with
  | '.' :: s =>
    let fraction := s.takeWhile Char.isDigit
    !(whole.isEmpty && fraction.isEmpty) && isExponent (s.dropWhile Char.isDigit)
  | s => !whole.isEmpty && isExponent s

def isNumber (s : List Char) : Bool :=
  match s with
  | '0' :: 'x' :: hex => !hex.isEmpty && hex.all isHexDigit
  | '0' :: 'X' :: hex => !hex.isEmpty && hex.all isHexDigit
  | s => isDecimal (Text.dropTail isSuffix s)

def unsigned : List Char → List Char
  | '-' :: s => s
  | s => s

def isLiteral (expr : String) : Bool :=
  let s := Text.trim expr.toList
  isQuoted s || isKeyword s || isNumber (unsigned s)

end Initializer

def InitPolicy.allows : InitPolicy → String → Bool
  | inline, _ => true
  | deferConstructions, expr => !Initializer.hasConstruction expr
  | deferNonLiteral, expr => Initializer.isLiteral expr

namespace Field

/-- Whether the initializer may stand beside the field. Constants and static fields have it there always:
a method of an instance cannot initialize them. -/
def isInlineSafe (policy : InitPolicy) (f : Field) : Bool :=
  match f.initializer with
  | none => true
  | some expr => f.isConst || f.isStatic || policy.allows expr

def isDeferred (policy : InitPolicy) (f : Field) : Bool := f.initializer.isSome && !f.isInlineSafe policy

end Field

end Stencil
