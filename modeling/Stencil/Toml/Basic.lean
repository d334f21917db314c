import Stencil.Toml.Numeral

/-!
TOML values and the tables that a document builds up line by line.
-/
namespace Stencil.Toml

inductive Origin
  | inline
  | header
  | implicit
  | dotted
deriving DecidableEq, Repr

/-- A value. Of floats and of dates and times only the kind is kept. -/
inductive Value
  | string (s : String)
  | integer (n : Numeral)
  | float
  | boolean (b : Bool)
  | datetime
  /-- An array; the flag tells an array of tables that headers make. -/
  | array (ofHeaders : Bool) (items : List Value)
  | table (origin : Origin) (entries : List (String × Value))
deriving Repr, Inhabited

abbrev Entries := List (String × Value)

namespace Entries

def replace (es : Entries) (key : String) (v : Value) : Entries :=
  es.map fun e => if e.1 == key then (key, v) else e

def add (es : Entries) (key : String) (v : Value) : Option Entries :=
  if (es.lookup key).isSome then none else some (es ++ [(key, v)])

def atHeader (change : Entries → Option Entries) : List String → Entries → Option Entries
  | [], es => change es
  | key :: path, es =>
    match es.lookup key with
    | none => do return es ++ [(key, .table .implicit (← atHeader change path []))]
    | some (.table .inline _) => none
    | some (.table origin inner) => do return es.replace key (.table origin (← atHeader change path inner))
    | some (.array true items) =>
      match items.getLast? with
      | some (.table origin inner) => do
        let last := Value.table origin (← atHeader change path inner)
        return es.replace key (.array true (items.dropLast ++ [last]))
      | _ => none
    | some _ => none

/-- Changes the table at the path of a dotted key. A table that has a header of its own is not extended in
this way, and the innermost table belongs to dotted keys alone. -/
def atDotted (change : Entries → Option Entries) : List String → Entries → Option Entries
  | [], es => change es
  | key :: path, es =>
    match es.lookup key with
    | none => do return es ++ [(key, .table .dotted (← atDotted change path []))]
    | some (.table origin inner) =>
      if origin = .dotted ∨ (origin = .implicit ∧ path ≠ []) then do
        return es.replace key (.table origin (← atDotted change path inner))
      else none
    | some (.array true items) =>
      match items.getLast?, path with
      | some (.table origin inner), _ :: _ => do
        let last := Value.table origin (← atDotted change path inner)
        return es.replace key (.array true (items.dropLast ++ [last]))
      | _, _ => none
    | some _ => none

def assign (es : Entries) (path : List String) (key : String) (v : Value) : Option Entries :=
  atDotted (·.add key v) path es

def openTable (key : String) (es : Entries) : Option Entries :=
  match es.lookup key with
  | none => some (es ++ [(key, .table .header [])])
  | some (.table .implicit inner) => some (es.replace key (.table .header inner))
  | some _ => none

def openItem (key : String) (es : Entries) : Option Entries :=
  match es.lookup key with
  | none => some (es ++ [(key, .array true [.table .header []])])
  | some (.array true items) => some (es.replace key (.array true (items ++ [.table .header []])))
  | some _ => none

end Entries

end Stencil.Toml
