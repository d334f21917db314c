import Stencil.Toml.Scalar

/-!
Reading TOML documents. Arrays and inline tables may span lines, with comments in them.
-/
namespace Stencil.Toml

def comment? : List Char → Option (List Char)
  | '#' :: s =>
    let rest := s.dropWhile (!isControl ·)
    if rest.isEmpty || (newline? rest).isSome then some rest else none
  | s => some s

def skipTrivia (inComment : Bool) : List Char → Option (List Char)
  | [] => some []
  | '\n' :: s => skipTrivia false s
  | '\r' :: '\n' :: s => skipTrivia false s
  | c :: s =>
    if inComment then if isControl c then none else skipTrivia true s
    else if isSpace c then skipTrivia false s
    else if c = '#' then skipTrivia true s
    else some (c :: s)

def skipLines (s : List Char) : Option (List Char) := skipTrivia false s

def endLine? (s : List Char) : Option (List Char) := do
  let s ← comment? (skipSpace s)
  if s.isEmpty then some [] else newline? s

mutual
/-- A value. The fuel bounds how many values and signs are read, the room how deep they are nested. -/
def value? : Nat → Nat → Reader Value
  | 0, _, _ => none
  | fuel + 1, room, s =>
    match s, room with
    | '[' :: s, room + 1 => do
      let (items, s) ← items? fuel room s
      return (.array false items, s)
    | '\x7b' :: s, room + 1 => do
      let (entries, s) ← entries? fuel room [] s
      return (.table .inline entries, s)
    | '[' :: _, 0 => none
    | '\x7b' :: _, 0 => none
    | '"' :: _, _ => do
      let (text, s) ← string? s
      return (.string text, s)
    | '\'' :: _, _ => do
      let (text, s) ← string? s
      return (.string text, s)
    | s, _ => do
      let (text, s) := scalarText s
      return (← scalar? text, s)

def items? : Nat → Nat → Reader (List Value)
  | 0, _, _ => none
  | fuel + 1, room, s => do
    match ← skipLines s with
    | ']' :: s => return ([], s)
    | s =>
      let (v, s) ← value? fuel room s
      match ← skipLines s with
      | ',' :: s =>
        let (items, s) ← items? fuel room s
        return (v :: items, s)
      | ']' :: s => return ([v], s)
      | _ => none

def entries? : Nat → Nat → Entries → Reader Entries
  | 0, _, _, _ => none
  | fuel + 1, room, es, s => do
    match ← skipLines s with
    | '\x7d' :: s => return (es, s)
    | s =>
      let ((path, key), s) ← path? s
      match ← skipLines s with
      | '=' :: s =>
        let (v, s) ← value? fuel room (← skipLines s)
        let es ← es.assign path key v
        match ← skipLines s with
        | ',' :: s => entries? fuel room es s
        | '\x7d' :: s => return (es, s)
        | _ => none
      | _ => none
end

structure Document where
  entries : Entries := []
  header : List String := []

namespace Document

def header? (d : Document) (s : List Char) : Option (Document × List Char) :=
  match s with
  | '[' :: s => do
    let ((path, key), s) ← path? (skipSpace s)
    match skipSpace s with
    | ']' :: ']' :: s => return (⟨← d.entries.atHeader (Entries.openItem key) path, path ++ [key]⟩, s)
    | _ => none
  | s => do
    let ((path, key), s) ← path? (skipSpace s)
    match skipSpace s with
    | ']' :: s => return (⟨← d.entries.atHeader (Entries.openTable key) path, path ++ [key]⟩, s)
    | _ => none

def assignment? (d : Document) (s : List Char) : Option (Document × List Char) := do
  let ((path, key), s) ← path? s
  match skipSpace s with
  | '=' :: s =>
    let (v, s) ← value? (s.length + 1) maxNesting (skipSpace s)
    let entries ← d.entries.atHeader (·.assign path key v) d.header
    return ({ d with entries }, s)
  | _ => none

/-- Reads line by line; each step uses up a character. -/
def read? : Nat → Document → List Char → Option Document
  | 0, _, _ => none
  | fuel + 1, d, s => do
    match skipSpace s with
    | [] => return d
    | '[' :: s =>
      let (d, s) ← d.header? s
      d.read? fuel (← endLine? s)
    | s =>
      if s.head? = some '#' ∨ (newline? s).isSome then d.read? fuel (← endLine? s)
      else
        let (d, s) ← d.assignment? s
        d.read? fuel (← endLine? s)

end Document

def withoutMark : List Char → List Char
  | '\ufeff' :: s => s
  | s => s

def parse? (text : String) : Option Entries :=
  let s := withoutMark text.toList
  ((({} : Document)).read? (s.length + 1) s).map Document.entries

end Stencil.Toml
