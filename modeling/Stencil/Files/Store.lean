import Stencil.Path

/-!
File stores: the file operations that the tool needs, and what is built from them.
-/
namespace Stencil

inductive MakeError
  | noParent
  | other
deriving DecidableEq, Repr

/-- The file operations. `none` and `false` stand for failure. -/
class FileStore (m : Type → Type) where
  readText : Path → m (Option String)
  modified : Path → m (Option Nat)
  isDirectory : Path → m Bool
  makeDirectory : Path → m (Except MakeError Unit)
  writeText : Path → String → m Bool
  rename : Path → Path → m Bool

inductive WriteError
  | directory (path : Path)
  | staging (path : Path)
  | move (path : Path)
deriving DecidableEq, Repr

def WriteError.message : WriteError → String
  | directory path => "failed to create directory '" ++ path ++ "'"
  | staging path => "failed to write '" ++ path ++ "'"
  | move path => "failed to move output into '" ++ path ++ "'"

inductive WriteOutcome
  | written
  | unchanged
deriving DecidableEq, Repr

inductive StaleRule
  | always
  | missing
  | olderThan (time : Nat)
deriving DecidableEq, Repr

namespace FileStore

variable {m : Type → Type} [Monad m] [FileStore m]

/-- Makes a directory and those above it that are missing. The fuel bounds how many are above. -/
def makeDirectories : Nat → Path → m Bool
  | _, "" => pure true
  | fuel, p => do
    match ← makeDirectory p with
    | .ok () => return true
    | .error .other => isDirectory p
    | .error .noParent =>
      match fuel, p.parent? with
      | fuel + 1, some q =>
        if ← makeDirectories fuel q then
          match ← makeDirectory p with
          | .ok () => return true
          | .error _ => isDirectory p
        else return false
      | _, _ => return false

def stagingPath (p : Path) : Path := p.withFileName ("." ++ (Path.fileName? p).getD "" ++ ".tmp")

def moveText (p : Path) (content : String) : ExceptT WriteError m Unit := do
  if !(← writeText (m := m) (stagingPath p) content) then throw (.staging (stagingPath p))
  if !(← rename (m := m) (stagingPath p) p) then throw (.move p)

def replaceText (p : Path) (content : String) : ExceptT WriteError m Unit := do
  if let some parent := Path.parent? p then
    if !(← makeDirectories (m := m) parent.length parent) then throw (.directory parent)
  moveText p content

def updateText (p : Path) (content : String) : ExceptT WriteError m WriteOutcome := do
  if (← readText (m := m) p) = some content then return .unchanged
  replaceText p content
  return .written

def isStale (rule : StaleRule) (p : Path) : m Bool := do
  match rule with
  | .always => return true
  | .missing => return (← modified p).isNone
  | .olderThan time => return ((← modified p).map (decide <| · < time)).getD true

end FileStore

end Stencil
