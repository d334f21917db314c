import Stencil.Text.CaseMap

/-!
Casing of identifiers. Words of an identifier are separated by `_` or `-`.
-/
namespace Stencil.Text

def isSeparator (c : Char) : Bool := c == '_' || c == '-'

def upperFirst : List Char → List Char
  | [] => []
  | c :: cs => upper c ++ cs

def lowerFirst : List Char → List Char
  | [] => []
  | c :: cs => lower c ++ cs

def pascalChars (s : List Char) : List Char := ((s.splitOnP isSeparator).map upperFirst).flatten

def capitalize (s : String) : String := .ofList (upperFirst s.toList)

def pascal (s : String) : String := .ofList (pascalChars s.toList)

def camel (s : String) : String := .ofList (lowerFirst (pascalChars s.toList))

end Stencil.Text
