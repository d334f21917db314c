import Stencil.Text.Blank

/-!
Paths of files, with segments separated by slashes.
-/
namespace Stencil

abbrev Path := String

namespace Path

def isAbsolute (p : Path) : Bool := p.toList.head? == some '/'

def push (p q : Path) : Path :=
  if isAbsolute q || p = "" then q
  else if p.toList.getLast? == some '/' then p ++ q
  else p ++ "/" ++ q

def segments (p : Path) : List String := (p.toList.splitOn '/').map String.ofList

/-- What stands in front of the segments that count: a root slash, or a dot for the current directory. -/
def anchor (p : Path) : List Char :=
  match p.toList with
  | '/' :: _ => ['/']
  | ['.'] => ['.']
  | '.' :: '/' :: _ => ['.']
  | _ => []

def isIdle (segment : List Char) : Bool := segment == [] || segment == ['.']

def components (p : Path) : List (List Char) :=
  [anchor p].filter (!·.isEmpty) ++ ((p.toList.drop (anchor p).length).splitOn '/').filter (!isIdle ·)

/-- Paths are compared by their components. -/
def Same (p q : Path) : Prop := components p = components q

instance (p q : Path) : Decidable (Same p q) := inferInstanceAs (Decidable (components p = components q))

def trail (p : Path) : List (List Char) :=
  Text.dropTail isIdle ((p.toList.drop (anchor p).length).splitOn '/')

def fileName? (p : Path) : Option String :=
  ((trail p).getLast?.filter (· ≠ ['.', '.'])).map String.ofList

def parent? (p : Path) : Option Path :=
  if (trail p).isEmpty then if anchor p = ['.'] then some "" else none
  else
    let rest := Text.dropTail isIdle (trail p).dropLast
    some (.ofList (anchor p ++ ['/'].intercalate rest))

def withFileName (p : Path) (name : String) : Path :=
  (if (fileName? p).isSome then (parent? p).getD "" else p).push name

end Path

end Stencil
