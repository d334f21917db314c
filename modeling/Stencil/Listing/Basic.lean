import Stencil.Listing.Indent
import Stencil.Text.Blank

/-!
Listings: lines of code with their nesting depth, and the text of a line that is not finished yet.
Indentation is produced only when a listing is rendered, so that one listing can be spliced into another.
-/
namespace Stencil

structure Delimiters where
  opening : String
  closing : String
deriving DecidableEq, Repr

def Delimiters.braces : Delimiters := ⟨"\x7b", "\x7d"⟩

structure Line where
  depth : Nat
  text : String
deriving DecidableEq, Repr

def Line.isBlank (l : Line) : Bool := l.text.toList.all Text.isBlank

structure Listing where
  lines : List Line := []
  pending : Option String := none
  depth : Nat := 0
  delimiters : Delimiters := .braces
deriving DecidableEq, Repr

namespace Listing

instance : Inhabited Listing := ⟨{}⟩

def ofTexts (texts : List String) : Listing := { lines := texts.map (Line.mk 0) }

def toTexts (l : Listing) : List String :=
  let tabbed (depth : Nat) (text : String) := String.ofList (List.replicate depth '\t') ++ text
  l.lines.map (fun x => tabbed x.depth x.text) ++ (l.pending.map (tabbed l.depth)).toList

def write (l : Listing) (text : String) : Listing :=
  { l with pending := some (l.pending.getD "" ++ text) }

def writeLine (l : Listing) (text : String) : Listing :=
  { l with lines := l.lines ++ [⟨l.depth, l.pending.getD "" ++ text⟩], pending := none }

def endLine (l : Listing) : Listing :=
  match l.pending with
  | some text => { l with lines := l.lines ++ [⟨l.depth, text⟩], pending := none }
  | none => l

def blankLine (l : Listing) : Listing :=
  let l := l.endLine
  { l with lines := l.lines ++ [⟨0, ""⟩] }

def nest (l : Listing) : Listing := { l with depth := l.depth + 1 }

def unnest (l : Listing) : Listing := { l with depth := l.depth - 1 }

def openBlock (l : Listing) : Listing := (l.endLine.writeLine l.delimiters.opening).nest

def closeBlock (l : Listing) : Listing := l.endLine.unnest.writeLine l.delimiters.closing

def allLines (l : Listing) : List Line := l.lines ++ (l.pending.map (Line.mk l.depth)).toList

def splice (l other : Listing) : Listing :=
  let l := l.endLine
  { l with lines := l.lines ++ other.allLines.map (fun x => ⟨l.depth + x.depth, x.text⟩) }

def eraseLine (l : Listing) (i : Nat) : Listing := { l with lines := l.lines.eraseIdx i }

def removeLine (l : Listing) (i : Nat) : Option Line × Listing := (l.lines[i]?, l.eraseLine i)

def insertLine (l : Listing) (i : Nat) (text : String) : Listing :=
  let depth := (l.lines[i]? <|> l.lines.getLast?).elim 0 Line.depth
  { l with lines := l.lines.insertIdx (min i l.lines.length) ⟨depth, text⟩ }

def setLine (l : Listing) (i : Nat) (line : Line) : Listing := { l with lines := l.lines.set i line }

def firstStatement? (l : Listing) : Option Nat := l.lines.findIdx? (!·.isBlank)

def size (l : Listing) : Nat := l.lines.length

def isEmpty (l : Listing) : Bool := l.lines.isEmpty && l.pending.isNone

end Listing

def Indent.margin (indent : Indent) (depth : Nat) : String :=
  String.join (List.replicate depth indent.text)

def Line.render (indent : Indent) (l : Line) : String :=
  if l.text = "" then "\n" else indent.margin l.depth ++ l.text ++ "\n"

def Listing.render (l : Listing) (indent : Indent) : String :=
  String.join (l.lines.map (Line.render indent)) ++ (l.pending.map (indent.margin l.depth ++ ·)).getD ""

end Stencil
