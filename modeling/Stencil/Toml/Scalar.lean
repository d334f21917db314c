import Stencil.Toml.Basic
import Stencil.Toml.Datetime
import Stencil.Toml.Text

/-!
Scalars of TOML that are no strings: truth values, numbers, dates and times.
-/
namespace Stencil.Toml

def isDelimiter (c : Char) : Bool := c ∈ ['=', ',', '[', ']', '\x7b', '\x7d', ' ', '\t', '#', '\r', '\n']

def startsWord : List Char → Bool
  | [] => false
  | c :: _ => !isDelimiter c && c != '.' && c != '"' && c != '\''

/-- The text of a scalar, and what is behind it. A blank belongs to it if a word follows, as between a date
and a time. -/
def scalarText : List Char → List Char × List Char
  | [] => ([], [])
  | c :: s =>
    if !isDelimiter c || (isSpace c && startsWord (skipSpace s)) then
      let (text, rest) := scalarText s
      (c :: text, rest)
    else ([], c :: s)

def scalar? (s : List Char) : Option Value :=
  if s == "true".toList then some (.boolean true)
  else if s == "false".toList then some (.boolean false)
  else match Numeral.parse? s with
    | some n => some (.integer n)
    | none =>
      if Float.isFloat s then some .float
      else if Datetime.isDatetime s then some .datetime
      else none

end Stencil.Toml
