import Stencil.Text.CaseMap

/-!
Languages in which source files can be written.
-/
namespace Stencil

inductive Language
  | csharp
deriving DecidableEq, Repr

namespace Language

instance : Inhabited Language := ⟨csharp⟩

def name : Language → String
  | csharp => "csharp"

def names : List (String × Language) := [("csharp", csharp), ("cs", csharp)]

def spokenNames : List (String × Language) := names ++ [("c#", csharp)]

def unknownMessage (s : String) : String := "unknown language '" ++ s ++ "', expected 'csharp'"

def ofText? (s : String) : Option Language :=
  spokenNames.lookup (.ofList (s.toList.flatMap Text.lower))

end Language

end Stencil
