import Stencil.Text.CharSet

/-!
Blank characters, the Unicode property White_Space, and trimming by them.
-/
namespace Stencil.Text

def blankEdges : List Nat := [
  0x9, 0xE, 0x20, 0x21, 0x85, 0x86, 0xA0, 0xA1, 0x1680, 0x1681, 0x2000, 0x200B, 0x2028, 0x202A,
  0x202F, 0x2030, 0x205F, 0x2060, 0x3000, 0x3001]

def isBlank (c : Char) : Bool := inside blankEdges c.toNat

def trimStart (s : List Char) : List Char := s.dropWhile isBlank

def dropTail {α : Type} (p : α → Bool) (s : List α) : List α := (s.reverse.dropWhile p).reverse

def trimEnd (s : List Char) : List Char := dropTail isBlank s

def trim (s : List Char) : List Char := trimEnd (trimStart s)

end Stencil.Text
