import Stencil.Language
import Stencil.Path

/-!
Arguments of the command line. Arguments are read from left to right, and the first that asks for help, or
that is wrong, decides.
-/
namespace Stencil.CommandLine

structure EmitOptions where
  input : Path
  config : Option Path := none
  output : Option Path := none
  language : Option Language := none
  force : Bool := false
  dryRun : Bool := false
deriving DecidableEq, Repr

inductive Shell
  | bash
  | elvish
  | fish
  | powershell
  | zsh
deriving DecidableEq, Repr

def Shell.names : List (String × Shell) :=
  [("bash", .bash), ("elvish", .elvish), ("fish", .fish), ("powershell", .powershell), ("zsh", .zsh)]

inductive Command
  | emit (options : EmitOptions)
  | check (input : Path)
  | listLints
  | completions (shell : Shell)
deriving DecidableEq, Repr

inductive Stop
  | help
  | version
  | misuse
deriving DecidableEq, Repr

structure Switch where
  long : String
  short : Option Char := none
  takes : Option (String → Bool) := none

structure Grammar where
  switches : List Switch
  positional : String → Bool

structure Reading where
  awaiting : Option Switch := none
  onlyPositional : Bool := false
  given : List (String × String) := []
  positional : Option String := none

namespace Reading

def give (r : Reading) (s : Switch) (value : String) : Except Stop Reading :=
  if (r.given.lookup s.long).isSome then .error .misuse
  else .ok { r with given := r.given ++ [(s.long, value)], awaiting := none }

def giveValue (r : Reading) (s : Switch) (value : String) : Except Stop Reading :=
  if s.takes.any (· value) then r.give s value else .error .misuse

def givePositional (g : Grammar) (r : Reading) (value : String) : Except Stop Reading :=
  if r.positional.isNone && g.positional value then .ok { r with positional := some value }
  else .error .misuse

def long (g : Grammar) (r : Reading) (arg : List Char) : Except Stop Reading :=
  let name := String.ofList (arg.takeWhile (· ≠ '='))
  let value := match arg.dropWhile (· ≠ '=') with
    | [] => none
    | _ :: value => some (String.ofList value)
  if name = "help" then .error (if value.isNone then .help else .misuse)
  else match g.switches.find? (·.long == name), value with
    | none, _ => .error .misuse
    | some s, none => if s.takes.isSome then .ok { r with awaiting := some s } else r.give s ""
    | some s, some value => r.giveValue s value

def short (g : Grammar) (r : Reading) : List Char → Except Stop Reading
  | [] => .ok r
  | c :: rest =>
    if c = 'h' then .error .help
    else match g.switches.find? (·.short == some c) with
      | none => .error .misuse
      | some s =>
        if s.takes.isSome then
          match rest with
          | [] => .ok { r with awaiting := some s }
          | '=' :: value => r.giveValue s (.ofList value)
          | value => r.giveValue s (.ofList value)
        else do (← r.give s "").short g rest

def step (g : Grammar) (r : Reading) (arg : String) : Except Stop Reading :=
  if r.onlyPositional then r.givePositional g arg
  else match arg.toList, r.awaiting with
    | '-' :: _ :: _, some _ => .error .misuse
    | ['-', '-'], none => .ok { r with onlyPositional := true }
    | '-' :: '-' :: name, none => r.long g name
    | '-' :: c :: name, none => r.short g (c :: name)
    | _, some s => r.giveValue s arg
    | _, none => r.givePositional g arg

def all (g : Grammar) (args : List String) : Except Stop Reading := do
  let r ← args.foldlM (step g) {}
  if r.awaiting.isSome then .error .misuse else .ok r

def value? (r : Reading) (s : String) : Option String := r.given.lookup s

def has (r : Reading) (s : String) : Bool := (r.value? s).isSome

end Reading

def isPathArgument (s : String) : Bool := s ≠ ""

def emitGrammar : Grammar where
  switches := [
    { long := "config", short := 'c', takes := some isPathArgument },
    { long := "output", short := 'o', takes := some isPathArgument },
    { long := "language", short := 'l', takes := some fun s => (Language.ofText? s).isSome },
    { long := "force", short := 'f' },
    { long := "dry-run" }]
  positional := isPathArgument

def emit (args : List String) : Except Stop Command := do
  let r ← Reading.all emitGrammar args
  match r.positional with
  | none => .error .misuse
  | some input =>
    return .emit {
      input
      config := r.value? "config"
      output := r.value? "output"
      language := r.value? "language" >>= Language.ofText?
      force := r.has "force"
      dryRun := r.has "dry-run" }

def check (args : List String) : Except Stop Command := do
  let r ← Reading.all ⟨[{ long := "list-lints" }], isPathArgument⟩ args
  if r.has "list-lints" then return .listLints
  match r.positional with
  | some input => return .check input
  | none => .error .misuse

def completions (args : List String) : Except Stop Command := do
  let r ← Reading.all ⟨[], fun s => (Shell.names.lookup s).isSome⟩ args
  match r.positional >>= (Shell.names.lookup ·) with
  | some shell => return .completions shell
  | none => .error .misuse

def commandNames : List String := ["emit", "check", "completions", "help"]

def help : List String → Stop
  | [] => .help
  | [name] => if name ∈ commandNames then .help else .misuse
  | _ => .misuse

def topOption (arg : String) : Stop :=
  if arg = "--help" then .help
  else if arg = "--version" then .version
  else match arg.toList with
    | '-' :: 'h' :: _ => .help
    | '-' :: 'V' :: _ => .version
    | _ => .misuse

def parse : List String → Except Stop Command
  | [] => .error .misuse
  | "emit" :: args => emit args
  | "check" :: args => check args
  | "completions" :: args => completions args
  | "help" :: args => .error (help args)
  | arg :: _ => .error (topOption arg)

end Stencil.CommandLine
