import Stencil.Dialect.CSharp
import Stencil.Language
import Stencil.Path
import Stencil.Toml.Reader

/-!
The configuration of a run. Every key has a default, and no other keys are allowed.
-/
namespace Stencil

inductive Staleness
  | always
  | missing
  | newer
deriving DecidableEq, Repr

namespace Staleness

def name : Staleness → String
  | always => "always"
  | missing => "missing"
  | newer => "newer"

def names : List (String × Staleness) := [always, missing, newer].map fun s => (s.name, s)

end Staleness

structure Config where
  language : Language := .csharp
  /-- Spaces per level; zero selects tabs. -/
  indent : Nat := 4
  policy : InitPolicy := .deferConstructions
  dir : Path := "generated"
  staleness : Staleness := .newer
deriving DecidableEq, Repr

namespace Config

instance : Inhabited Config := ⟨{}⟩

open Toml

def choice? {α : Type} (names : List (String × α)) : Value → Option α
  | .string s => names.lookup s
  | .table _ [(key, .table _ [])] => names.lookup key
  | .table _ [(key, .array _ [])] => names.lookup key
  | _ => none

def indent? : Value → Option Nat
  | .integer n => (n.value?.filter fun v => 0 ≤ v ∧ v ≤ 255).map Int.toNat
  | _ => none

def string? : Value → Option String
  | .string s => some s
  | _ => none

def section? (keys : List String) : Value → Option (String → Option Value)
  | .table _ entries => if entries.all (·.1 ∈ keys) then some (entries.lookup ·) else none
  | .array _ items => some ((keys.zip items).lookup ·)
  | _ => none

def field {α : Type} (fields : String → Option Value) (key : String) (default : α)
    (read : Value → Option α) : Option α :=
  match fields key with
  | some v => read v
  | none => some default

def ofEntries? (entries : Entries) : Option Config := do
  let fields ← section? ["target", "output"] (.table .header entries)
  let target ← section? ["language", "indent", "field-init"] ((fields "target").getD (.array false []))
  let output ← section? ["dir", "staleness"] ((fields "output").getD (.array false []))
  return {
    language := ← field target "language" .csharp (choice? Language.names)
    indent := ← field target "indent" 4 indent?
    policy := ← field target "field-init" .deferConstructions (choice? InitPolicy.names)
    dir := ← field output "dir" "generated" string?
    staleness := ← field output "staleness" .newer (choice? Staleness.names) }

def agrees (c other : Config) : Bool :=
  decide ({ c with dir := other.dir } = other) && decide (Path.Same c.dir other.dir)

def parse? (text : String) : Option Config := Toml.parse? text >>= ofEntries?

def dialect (c : Config) : Language → Dialect
  | .csharp => .csharp (.ofWidth c.indent) c.policy

end Config

inductive ConfigError
  | unreadable (path : Path)
  | malformed (fileName : String)
deriving DecidableEq, Repr

namespace ConfigError

def message : ConfigError → String
  | unreadable path => "failed to read '" ++ path ++ "'"
  | malformed fileName => "failed to parse " ++ fileName

def code : ConfigError → String
  | unreadable _ => "crossgen::config_io"
  | malformed _ => "crossgen::config_parse"

end ConfigError

def Config.ofText (fileName text : String) : Except ConfigError Config :=
  match Config.parse? text with
  | some c => .ok c
  | none => .error (.malformed fileName)

end Stencil
