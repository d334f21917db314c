import Stencil.Toml.Numeral

/-!
Strings and keys of TOML. A reader gives what it reads and the text behind it.
-/
namespace Stencil.Toml

abbrev Reader (α : Type) := List Char → Option (α × List Char)

def isSpace (c : Char) : Bool := c == ' ' || c == '\t'

def skipSpace (s : List Char) : List Char := s.dropWhile isSpace

def isControl (c : Char) : Bool := (c.toNat < 0x20 && c != '\t') || c.toNat == 0x7F

def newline? : List Char → Option (List Char)
  | '\n' :: s => some s
  | '\r' :: '\n' :: s => some s
  | _ => none

def codePoint? (ds : List Char) : Option Char :=
  if ds.all isHexDigit && (digitsValue 16 ds).isValidChar then some (Char.ofNat (digitsValue 16 ds)) else none

def escaped? : Char → Option Char
  | 'b' => some '\x08'
  | 'e' => some '\x1b'
  | 't' => some '\t'
  | 'n' => some '\n'
  | 'f' => some '\x0c'
  | 'r' => some '\r'
  | '"' => some '"'
  | '\\' => some '\\'
  | _ => none

def basicString (read : List Char) : Reader String
  | [] => none
  | '"' :: s => some (.ofList read.reverse, s)
  | '\\' :: 'x' :: a :: b :: s => do basicString ((← codePoint? [a, b]) :: read) s
  | '\\' :: 'u' :: a :: b :: c :: d :: s => do basicString ((← codePoint? [a, b, c, d]) :: read) s
  | '\\' :: 'U' :: a :: b :: c :: d :: e :: f :: g :: h :: s => do
    basicString ((← codePoint? [a, b, c, d, e, f, g, h]) :: read) s
  | '\\' :: c :: s => do basicString ((← escaped? c) :: read) s
  | c :: s => if isControl c then none else basicString (c :: read) s

def literalString (read : List Char) : Reader String
  | [] => none
  | '\'' :: s => some (.ofList read.reverse, s)
  | c :: s => if isControl c then none else literalString (c :: read) s

def endsLine (s : List Char) : Bool := (newline? (skipSpace s)).isSome

/-- A basic string of several lines. Line ends are kept as they are. After a backslash that ends a line,
blanks and line ends are skipped. Up to two quotes may stand in front of the closing ones. -/
def longString (skipping : Bool) (read : List Char) : Reader String
  | [] => none
  | '"' :: '"' :: '"' :: '"' :: '"' :: s => some (.ofList ('"' :: '"' :: read).reverse, s)
  | '"' :: '"' :: '"' :: '"' :: s => some (.ofList ('"' :: read).reverse, s)
  | '"' :: '"' :: '"' :: s => some (.ofList read.reverse, s)
  | '\\' :: 'x' :: a :: b :: s => do longString false ((← codePoint? [a, b]) :: read) s
  | '\\' :: 'u' :: a :: b :: c :: d :: s => do longString false ((← codePoint? [a, b, c, d]) :: read) s
  | '\\' :: 'U' :: a :: b :: c :: d :: e :: f :: g :: h :: s => do
    longString false ((← codePoint? [a, b, c, d, e, f, g, h]) :: read) s
  | '\\' :: c :: s =>
    if endsLine (c :: s) then longString true read (c :: s)
    else do longString false ((← escaped? c) :: read) s
  | '\r' :: '\n' :: s => longString skipping (if skipping then read else '\n' :: '\r' :: read) s
  | '\n' :: s => longString skipping (if skipping then read else '\n' :: read) s
  | c :: s =>
    if isControl c then none
    else if skipping && isSpace c then longString true read s
    else longString false (c :: read) s

def longLiteral (read : List Char) : Reader String
  | [] => none
  | '\'' :: '\'' :: '\'' :: '\'' :: '\'' :: s => some (.ofList ('\'' :: '\'' :: read).reverse, s)
  | '\'' :: '\'' :: '\'' :: '\'' :: s => some (.ofList ('\'' :: read).reverse, s)
  | '\'' :: '\'' :: '\'' :: s => some (.ofList read.reverse, s)
  | '\r' :: '\n' :: s => longLiteral ('\n' :: '\r' :: read) s
  | '\n' :: s => longLiteral ('\n' :: read) s
  | c :: s => if isControl c then none else longLiteral (c :: read) s

def afterQuotes (s : List Char) : List Char := (newline? s).getD s

def string? : Reader String
  | '"' :: '"' :: '"' :: s => longString false [] (afterQuotes s)
  | '"' :: s => basicString [] s
  | '\'' :: '\'' :: '\'' :: s => longLiteral [] (afterQuotes s)
  | '\'' :: s => literalString [] s
  | _ => none

def isBareKeyChar (c : Char) : Bool := c.isAlphanum || c == '_' || c == '-'

def key? : Reader String
  | '"' :: s => basicString [] s
  | '\'' :: s => literalString [] s
  | s =>
    let name := s.takeWhile isBareKeyChar
    if name.isEmpty then none else some (.ofList name, s.dropWhile isBareKeyChar)

def maxNesting : Nat := 80

def dotted? : Nat → Reader (List String × String)
  | 0, _ => none
  | count + 1, s => do
    let (key, s) ← key? s
    match skipSpace s with
    | '.' :: rest => do
      let ((path, last), s) ← dotted? count (skipSpace rest)
      return ((key :: path, last), s)
    | _ => return (([], key), s)

def path? : Reader (List String × String) := dotted? maxNesting

end Stencil.Toml
