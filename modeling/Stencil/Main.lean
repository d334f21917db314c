import Stencil.CommandLine.Run

/-!
The command line on the files of the machine.
-/
namespace Stencil

def attempt? {α : Type} (action : IO α) : IO (Option α) := do
  match ← action.toBaseIO with
  | .ok a => return some a
  | .error _ => return none

instance : FileStore IO where
  readText p := attempt? (IO.FS.readFile p)
  modified p := do
    let dir ← IO.currentDir
    let found ← attempt? (dir / p).metadata
    return found.map fun data => data.modified.sec.toNat * 1000000000 + data.modified.nsec.toNat
  isDirectory p := do (← IO.currentDir) / p |>.isDir
  makeDirectory p := do
    match ← (IO.FS.createDir p).toBaseIO with
    | .ok () => return .ok ()
    | .error (.noFileOrDirectory ..) => return .error .noParent
    | .error _ => return .error .other
  writeText p content := return (← attempt? (IO.FS.writeFile p content)).isSome
  rename p q := return (← attempt? (IO.FS.rename p q)).isSome

end Stencil

def main (args : List String) : IO UInt32 := do
  let outcome ← Stencil.CommandLine.run (m := IO) args
  IO.print outcome.out
  IO.eprint outcome.err.render
  return .ofNat outcome.exitCode
