import Stencil.Declaration.Basic

/-!
Tables of declarations. Declarations are appended and stay where they are, so a handle stays good.
-/
namespace Stencil

inductive TableError
  | malformed
  | duplicate (qualifiedName : String)
  | ambiguous (name : String) (candidates : List String)
deriving DecidableEq, Repr

def TableError.message : TableError → String
  | malformed => "malformed declaration JSON"
  | duplicate name => "declaration '" ++ name ++ "' is defined more than once"
  | ambiguous name candidates =>
    "type '" ++ name ++ "' matches several declarations: " ++ ", ".intercalate candidates

structure Table where
  declarations : List Declaration := []
deriving Repr

namespace Table

instance : Inhabited Table := ⟨{}⟩

def size (t : Table) : Nat := t.declarations.length

def isEmpty (t : Table) : Bool := t.declarations.isEmpty

def get? (t : Table) (h : Handle) : Option Declaration := t.declarations[h.index.toNat]?

def handleAt (i : Nat) : Handle := ⟨.ofNat i⟩

def nextHandle (t : Table) : Handle := handleAt t.size

def lookup? (t : Table) (qualifiedName : String) : Option Handle :=
  (t.declarations.findIdx? (·.qualifiedName == qualifiedName)).map handleAt

def entries (t : Table) : List (Handle × Declaration) :=
  t.declarations.zipIdx.map fun (d, i) => (handleAt i, d)

def insert (t : Table) (d : Declaration) : Except TableError (Handle × Table) :=
  if (t.lookup? d.qualifiedName).isSome then .error (.duplicate d.qualifiedName)
  else .ok (t.nextHandle, ⟨t.declarations ++ [d]⟩)

def insertAll (t : Table) (ds : List Declaration) : Except TableError Table :=
  ds.foldlM (fun t d => (t.insert d).map Prod.snd) t

def named (t : Table) (name : String) : List (Handle × Declaration) :=
  t.entries.filter (·.2.name == name)

/-- What a name refers to: the declaration with that qualified name, or else the only one with that simple
name. A name of no declaration is that of a built-in class. -/
def resolve (t : Table) (name : String) : Except TableError (Option (Handle × Declaration)) :=
  match t.entries.find? (·.2.qualifiedName == name) with
  | some entry => .ok (some entry)
  | none =>
    match t.named name with
    | [] => .ok none
    | [entry] => .ok (some entry)
    | several => .error (.ambiguous name (several.map (·.2.qualifiedName)))

def linkRef (t : Table) (r : Ref) : Except TableError Ref :=
  match r.handle with
  | some _ => .ok r
  | none => do
    match ← t.resolve r.name with
    | some (h, d) => return ⟨d.name, some h⟩
    | none => return r

def link (t : Table) : Except TableError Table := do
  return ⟨← t.declarations.mapM (·.traverse t.linkRef)⟩

def ofDeclarations (ds : List Declaration) : Except TableError Table := do
  (← ({} : Table).insertAll ds).link

end Table

end Stencil
