import Stencil.Declaration.Walks
import Stencil.Table.Basic

/-!
Tables as they are kept: the declarations, and beside them an index of their names. Operations change both in place.
One that fails leaves behind what it did before it failed.
-/
namespace Stencil

abbrev NameMap (α : Type) := List (String × α)

def NameMap.alter {α : Type} (name : String) (f : Option α → α) : NameMap α → NameMap α
  | [] => [(name, f none)]
  | (key, value) :: rest =>
    if key = name then (key, f (some value)) :: rest else (key, value) :: NameMap.alter name f rest

def NameMap.insert {α : Type} (m : NameMap α) (name : String) (value : α) : NameMap α := m.alter name fun _ => value

structure Arena extends Table where
  byName : NameMap Handle := []

structure Link where
  position : Nat
  name : String
  handle : Handle

namespace Arena

abbrev Action := ExceptT TableError (StateM Arena)

def lookup? (a : Arena) (qualifiedName : String) : Option Handle := a.byName.lookup qualifiedName

def insert (d : Declaration) : Action Handle := do
  let a ← get
  if (a.lookup? d.qualifiedName).isSome then throw (.duplicate d.qualifiedName)
  let h := a.nextHandle
  modify fun a => { a with declarations := a.declarations ++ [d] }
  modify fun a => { a with byName := a.byName.insert d.qualifiedName h }
  return h

def simpleNames (a : Arena) : NameMap (List Handle) :=
  a.entries.foldl (fun names entry => names.alter entry.2.name fun hs => hs.getD [] ++ [entry.1]) []

def resolve (a : Arena) (simple : NameMap (List Handle)) (name : String) : Except TableError (Option Handle) :=
  match a.lookup? name with
  | some h => .ok (some h)
  | none =>
    match simple.lookup name with
    | none => .ok none
    | some [] => .ok none
    | some [h] => .ok (some h)
    | some hs => .error (.ambiguous name ((hs.filterMap a.get?).map Declaration.qualifiedName))

def linksOf (a : Arena) (simple : NameMap (List Handle)) (position : Nat) (d : Declaration) :
    Except TableError (List Link) := do
  let found ← d.unlinkedNames.mapM fun name => do return (← a.resolve simple name).map (Link.mk position name)
  return found.filterMap id

def links (a : Arena) : Except TableError (List Link) := do
  let simple := a.simpleNames
  let found ← a.declarations.zipIdx.mapM fun entry => a.linksOf simple entry.2 entry.1
  return found.flatten

/-- A reference that has a handle already is not the one that is meant. -/
def follow (a : Arena) (l : Link) (r : Ref) : Ref :=
  match a.get? l.handle with
  | some target => if r.handle.isNone && r.name == l.name then ⟨target.name, some l.handle⟩ else r
  | none => r

def applyLink (a : Arena) (l : Link) : Arena :=
  { a with declarations := a.declarations.modify l.position (·.mapRefs (a.follow l)) }

def applyLinks : Except TableError (List Link) → Action Unit
  | .ok links => links.forM fun l => modify (·.applyLink l)
  | .error e => throw e

/-- All names are looked up before the first reference is changed. -/
def link : Action Unit := do applyLinks (← get).links

def load (ds : List Declaration) : Action Unit := do
  ds.forM fun d => discard (insert d)
  link

def ofDeclarations (ds : List Declaration) : Except TableError Arena :=
  let loaded := (load ds).run.run {}
  loaded.1.map fun _ => loaded.2

end Arena

end Stencil
