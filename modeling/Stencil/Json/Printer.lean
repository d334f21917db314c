import Stencil.Json.Basic

/-!
Writing JSON values without blanks. Control characters are escaped, all other characters stand for themselves.
-/
namespace Stencil.Json

def hexChar (n : Nat) : Char := Nat.digitChar n

def escape (c : Char) : List Char :=
  match c with
  | '"' => ['\\', '"']
  | '\\' => ['\\', '\\']
  | '\x08' => ['\\', 'b']
  | '\t' => ['\\', 't']
  | '\n' => ['\\', 'n']
  | '\x0c' => ['\\', 'f']
  | '\r' => ['\\', 'r']
  | c => if c.toNat < 0x20 then ['\\', 'u', '0', '0', hexChar (c.toNat / 16), hexChar (c.toNat % 16)] else [c]

def quoteChars (s : List Char) : List Char := '"' :: s.flatMap escape ++ ['"']

def quote : Option String → String
  | some s => .ofList (quoteChars s.toList)
  | none => "\"\\ud800\""

mutual
def render : Json → String
  | null => "null"
  | bool b => if b then "true" else "false"
  | number lexeme => lexeme
  | string text => quote text
  | array items => "[" ++ ",".intercalate (renderItems items) ++ "]"
  | object members => "\x7b" ++ ",".intercalate (renderMembers members) ++ "\x7d"

def renderItems : List Json → List String
  | [] => []
  | v :: vs => v.render :: renderItems vs

def renderMembers : List (Option String × Json) → List String
  | [] => []
  | m :: ms => renderMember m :: renderMembers ms

def renderMember : Option String × Json → String
  | (key, v) => quote key ++ ":" ++ v.render
end

end Stencil.Json
