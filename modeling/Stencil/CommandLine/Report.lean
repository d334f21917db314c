import Stencil.Emission.Basic
import Stencil.Files.Store
import Stencil.Lint.Basic

/-!
Reports of commands: what they print to the standard output, and their complaints.
-/
namespace Stencil.CommandLine

structure CheckReport where
  input : Path
  declarations : Nat
  diagnostics : List Diagnostic
deriving DecidableEq, Repr

def findingText (d : Diagnostic) : String :=
  "[" ++ d.lint ++ "] " ++ d.message ++ (d.location.map ("\n  --> " ++ ·)).getD ""

def linesText (lines : List String) : String := String.join (lines.map (· ++ "\n"))

def warningLines (ds : List Diagnostic) : List String :=
  (Diagnostic.warnings ds).map ("warning: " ++ findingText ·)

def plural (n : Nat) : String := if n = 1 then "" else "s"

namespace CheckReport

def errors (r : CheckReport) : List Diagnostic := Diagnostic.errors r.diagnostics

def warnings (r : CheckReport) : List Diagnostic := Diagnostic.warnings r.diagnostics

def isValid (r : CheckReport) : Bool := r.errors.isEmpty

def notes (r : CheckReport) : List String :=
  (r.diagnostics.filter (·.severity == .info)).map ("info: " ++ findingText ·)

def summary (r : CheckReport) : String :=
  if r.isValid then
    "✓ " ++ r.input ++ " is valid (" ++ toString r.declarations ++ " declaration" ++
      plural r.declarations ++ ")"
  else "✗ " ++ r.input ++ " has " ++ toString r.errors.length ++ " error" ++ plural r.errors.length

def out (r : CheckReport) : String :=
  linesText (r.notes ++ (if r.warnings.isEmpty && r.errors.isEmpty then [] else [""]) ++ [r.summary])

def err (r : CheckReport) : String :=
  linesText (r.errors.map ("error: " ++ findingText ·) ++ warningLines r.diagnostics)

end CheckReport

inductive EmitResult
  | written (dir : Path) (written unchanged : List Path)
  | preview (files : List (Path × String))
deriving DecidableEq, Repr

structure EmitReport where
  diagnostics : List Diagnostic
  declarations : Nat
  skipped : Nat
  result : EmitResult
deriving DecidableEq, Repr

namespace EmitReport

def divider (label : String) : String := "── " ++ label ++ " ──"

def resultLines (r : EmitReport) : List String :=
  match r.result with
  | .preview files =>
    files.flatMap (fun (path, content) => [divider path, content]) ++ [divider "Summary",
      toString files.length ++ " of " ++ toString r.declarations ++ " declarations would be emitted"]
  | .written dir written unchanged =>
    (if written.isEmpty then [] else ["Written:"] ++ written.map ("  + " ++ ·) ++ [""]) ++
      ["Emitted " ++ toString (written.length + unchanged.length) ++ " of " ++ toString r.declarations ++
        " declarations to " ++ dir ++ " (" ++ toString unchanged.length ++ " unchanged, " ++
        toString r.skipped ++ " up to date)"]

def out (r : EmitReport) : String :=
  linesText ((if (Diagnostic.warnings r.diagnostics).isEmpty then [] else [""]) ++ r.resultLines)

def err (r : EmitReport) : String := linesText (warningLines r.diagnostics)

end EmitReport

def lintsText (lints : List Lint) : String :=
  linesText ("Lints:" :: lints.map fun l => "  " ++ l.name ++ ": " ++ l.description)

end Stencil.CommandLine
