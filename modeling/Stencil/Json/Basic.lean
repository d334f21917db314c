/-!
JSON values with all that a text says: the order of members, repeated keys and numbers as written.
-/
namespace Stencil

inductive Json
  | null
  | bool (b : Bool)
  | number (lexeme : String)
  /-- A string; `none` stands for one with an unpaired surrogate, which has no text. -/
  | string (text : Option String)
  | array (items : List Json)
  | object (members : List (Option String × Json))
deriving Inhabited

namespace Json

def text (s : String) : Json := string (some s)

def natural (n : Nat) : Json := number (toString n)

def ofStrings (texts : List String) : Json := array (texts.map text)

def record (members : List (String × Json)) : Json := object (members.map fun m => (some m.1, m.2))

end Json

end Stencil
