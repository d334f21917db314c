/-!
Diagnostics and how they are counted and shown.
-/
namespace Stencil

inductive Severity
  | error
  | warning
  | info
deriving DecidableEq, Repr

def Severity.label : Severity → String
  | error => "error"
  | warning => "warning"
  | info => "info"

structure Diagnostic where
  severity : Severity
  lint : String
  message : String
  location : Option String := none
deriving DecidableEq, Repr

namespace Diagnostic

def isError (d : Diagnostic) : Bool := d.severity == .error

def isWarning (d : Diagnostic) : Bool := d.severity == .warning

def text (d : Diagnostic) : String :=
  d.severity.label ++ "[" ++ d.lint ++ "]: " ++ d.message ++
    (d.location.map fun place => " (at " ++ place ++ ")").getD ""

def errors (ds : List Diagnostic) : List Diagnostic := ds.filter isError

def warnings (ds : List Diagnostic) : List Diagnostic := ds.filter isWarning

end Diagnostic

end Stencil
