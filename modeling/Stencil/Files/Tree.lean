import Stencil.Files.Store

/-!
File trees: a store that is a value. Paths are looked up from the top of the tree, which is the current
directory. Of what is outside of the tree only that is known which was put there.
Links and permissions are left out, and so are writes that stop halfway: a file has all of its new content or is as it
was.
-/
namespace Stencil

inductive FileNode
  | file (content : String) (modified : Nat)
  | directory (modified : Nat)
deriving DecidableEq, Repr

namespace FileNode

def modified : FileNode → Nat
  | file _ time => time
  | directory time => time

def isDirectory : FileNode → Bool
  | directory _ => true
  | file .. => false

end FileNode

/-- A place: the names on the way to it from the top of the tree. A way out of the tree begins with `..`,
and an absolute one with `/`. -/
abbrev Location := List String

namespace Location

def isWayOut (step : String) : Bool := step == ".." || step == "/"

def above (l : Location) : Location :=
  match l.getLast? with
  | none => [".."]
  | some step => if step = ".." then l ++ [".."] else if step = "/" then l else l.dropLast

end Location

structure FileTree where
  clock : Nat
  nodes : List (Location × FileNode) := []
deriving Repr

namespace FileTree

def get? (t : FileTree) (l : Location) : Option FileNode :=
  if l.all Location.isWayOut then some (.directory t.clock) else t.nodes.lookup l

def erase (t : FileTree) (l : Location) : FileTree := { t with nodes := t.nodes.filter (·.1 ≠ l) }

def set (t : FileTree) (l : Location) (n : FileNode) : FileTree :=
  { t.erase l with nodes := (t.erase l).nodes ++ [(l, n)] }

def touch (t : FileTree) (l : Location) : FileTree :=
  { t with nodes := t.nodes.map fun (k, n) => (k, if k = l ∧ n.isDirectory then .directory t.clock else n) }

def enter (t : FileTree) (l : Location) (n : FileNode) : FileTree := (t.set l n).touch l.dropLast

def isName (name : String) : Bool := name.utf8ByteSize ≤ 255

def isPath (p : Path) : Bool := p.utf8ByteSize < 4096 && !p.toList.contains '\x00'

def walk (t : FileTree) : Location → List String → Except MakeError Location
  | l, [] => .ok l
  | l, s :: rest =>
    match t.get? l with
    | some (.directory _) =>
      if s = "" ∨ s = "." then t.walk l rest
      else if s = ".." then t.walk (Location.above l) rest
      else if !isName s then .error .other
      else if (t.get? (l ++ [s])).isSome then t.walk (l ++ [s]) rest
      else .error .noParent
    | _ => .error .other

def start (p : Path) : Location := if Path.isAbsolute p then ["/"] else []

def resolve (t : FileTree) (p : Path) : Except MakeError Location :=
  if p = "" then .error .noParent else if isPath p then t.walk (start p) (Path.segments p) else .error .other

def node? (t : FileTree) (p : Path) : Option FileNode :=
  match t.resolve p with
  | .ok l => t.get? l
  | .error _ => none

def entry (t : FileTree) (start : Location) (segments : List String) : Except MakeError Location := do
  let l ← t.walk start segments.dropLast
  match t.get? l, segments.getLast? with
  | some (.directory _), some name =>
    if name = "" ∨ name = "." ∨ name = ".." ∨ !isName name then .error .other else .ok (l ++ [name])
  | _, _ => .error .other

def entryAt (t : FileTree) (p : Path) : Except MakeError Location :=
  if p = "" then .error .noParent else if isPath p then t.entry (start p) (Path.segments p) else .error .other

def makeDirectory (t : FileTree) (p : Path) : Except MakeError FileTree := do
  if p = "" then throw .noParent
  if !isPath p then throw .other
  let l ← t.entry (start p) (Text.dropTail (· = "") (Path.segments p))
  if (t.get? l).isSome then throw .other
  return t.enter l (.directory t.clock)

def writeText (t : FileTree) (p : Path) (content : String) : Option FileTree :=
  match t.entryAt p with
  | .ok l =>
    match t.get? l with
    | some (.directory _) => none
    | some (.file ..) => some (t.set l (.file content t.clock))
    | none => some (t.enter l (.file content t.clock))
  | .error _ => none

def rename (t : FileTree) (p q : Path) : Option FileTree :=
  match t.resolve p, t.entryAt q with
  | .ok l, .ok l' =>
    match t.get? l with
    | some (.file content time) =>
      if (t.get? l').any FileNode.isDirectory then none
      else some (((t.erase l).touch l.dropLast).enter l' (.file content time))
    | _ => none
  | _, _ => none

def attempt (f : FileTree → Option FileTree) : StateM FileTree Bool := fun t =>
  match f t with
  | some t' => (true, t')
  | none => (false, t)

instance : FileStore (StateM FileTree) where
  readText p := fun t =>
    match t.node? p with
    | some (.file content _) => (some content, t)
    | _ => (none, t)
  modified p := fun t => ((t.node? p).map FileNode.modified, t)
  isDirectory p := fun t => ((t.node? p).any FileNode.isDirectory, t)
  makeDirectory p := fun t =>
    match t.makeDirectory p with
    | .ok t' => (.ok (), t')
    | .error e => (.error e, t)
  writeText p content := attempt (·.writeText p content)
  rename p q := attempt (·.rename p q)

end FileTree

end Stencil
