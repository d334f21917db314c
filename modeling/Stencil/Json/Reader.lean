import Stencil.Json.Basic
import Stencil.Json.Token

/-!
Reading JSON values from tokens, one token at a time, with the open arrays and objects on a stack.
Nesting is not limited here.
-/
namespace Stencil.Json

inductive Frame
  | array (items : List Json)
  | object (members : List (Option String × Json)) (key : Option String)

inductive Progress
  | value (stack : List Frame)
  | firstItem (stack : List Frame)
  | firstKey (stack : List Frame)
  | key (members : List (Option String × Json)) (stack : List Frame)
  | colon (members : List (Option String × Json)) (key : Option String) (stack : List Frame)
  | complete (v : Json) (stack : List Frame)

def Progress.begin (stack : List Frame) : Token → Option Progress
  | .openArray => some (.firstItem stack)
  | .openObject => some (.firstKey stack)
  | .null => some (.complete .null stack)
  | .bool b => some (.complete (.bool b) stack)
  | .number lexeme => some (.complete (.number lexeme) stack)
  | .string text => some (.complete (.string text) stack)
  | _ => none

def Progress.step : Progress → Token → Option Progress
  | .value stack, t => begin stack t
  | .firstItem stack, .closeArray => some (.complete (.array []) stack)
  | .firstItem stack, t => begin (.array [] :: stack) t
  | .firstKey stack, .closeObject => some (.complete (.object []) stack)
  | .firstKey stack, .string k => some (.colon [] k stack)
  | .key members stack, .string k => some (.colon members k stack)
  | .colon members k stack, .colon => some (.value (.object members k :: stack))
  | .complete v (.array items :: stack), .comma => some (.value (.array (v :: items) :: stack))
  | .complete v (.array items :: stack), .closeArray =>
    some (.complete (.array (v :: items).reverse) stack)
  | .complete v (.object members k :: stack), .comma => some (.key ((k, v) :: members) stack)
  | .complete v (.object members k :: stack), .closeObject =>
    some (.complete (.object ((k, v) :: members).reverse) stack)
  | _, _ => none

def ofTokens? (tokens : List Token) : Option Json :=
  match tokens.foldlM Progress.step (.value []) with
  | some (.complete v []) => some v
  | _ => none

def ofChars? (s : List Char) : Option Json := tokens? s >>= ofTokens?

def parse? (s : String) : Option Json := ofChars? s.toList

end Stencil.Json
