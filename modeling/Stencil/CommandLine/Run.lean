import Stencil.CommandLine.Arguments
import Stencil.CommandLine.Report
import Stencil.Config
import Stencil.Table.Reader

/-!
Running commands on a file store.
-/
namespace Stencil.CommandLine

def configFile : Path := "crossgen.toml"

def versionText : String := "crossgen 0.3.0"

inductive LoadError
  | unreadable (path : Path)
  | table (e : TableError)
deriving DecidableEq, Repr

def LoadError.message : LoadError → String
  | unreadable path => "failed to read '" ++ path ++ "'"
  | table e => e.message

inductive Failure
  | config (e : ConfigError)
  | load (input : Path) (e : LoadError)
  | invalid (report : CheckReport)
  | age (input : Path)
  | emission (e : EmitError)
  | write (e : WriteError)
deriving DecidableEq, Repr

section Commands

variable {m : Type → Type} [Monad m] [FileStore m]

def openConfig (path : Path) : ExceptT Failure m Config := do
  match ← FileStore.readText (m := m) path with
  | none => throw (.config (.unreadable path))
  | some text =>
    match Config.ofText ((Path.fileName? path).getD configFile) text with
    | .ok config => return config
    | .error e => throw (.config e)

def loadConfig : Option Path → ExceptT Failure m Config
  | some path => openConfig path
  | none => do
    if (← FileStore.modified (m := m) configFile).isSome then openConfig configFile else return {}

def loadTable (input : Path) : ExceptT Failure m Table := do
  match ← FileStore.readText (m := m) input with
  | none => throw (.load input (.unreadable input))
  | some text =>
    match Table.ofText text with
    | .ok t => return t
    | .error e => throw (.load input (.table e))

def checkTable (input : Path) (t : Table) : CheckReport := ⟨input, t.size, t.validate Lint.builtin⟩

def staleRule (input : Path) (force : Bool) (staleness : Staleness) : ExceptT Failure m StaleRule := do
  if force then return .always
  match staleness with
  | .always => return .always
  | .missing => return .missing
  | .newer =>
    match ← FileStore.modified (m := m) input with
    | some time => return .olderThan time
    | none => throw (.age input)

def staleFiles (δ : Dialect) (dir : Path) (rule : StaleRule) (t : Table) : ExceptT Failure m (List SourceFile) := do
  let paths := t.declarations.map (·.outputPath δ dir)
  let stale ← paths.filterM fun p => (FileStore.isStale rule p : m Bool)
  match t.emitAll δ (fun _ p => stale.contains p) dir with
  | .error e => throw (.emission e)
  | .ok files => return files

def writeFiles : List SourceFile → ExceptT Failure m (List Path × List Path)
  | [] => return ([], [])
  | f :: files => do
    match ← (FileStore.updateText f.path f.content : ExceptT WriteError m WriteOutcome).run with
    | .error e => throw (.write e)
    | .ok .written =>
      let (written, unchanged) ← writeFiles files
      return (f.path :: written, unchanged)
    | .ok .unchanged =>
      let (written, unchanged) ← writeFiles files
      return (written, f.path :: unchanged)

def reportFiles (dir : Path) (dryRun : Bool) (declarations : Nat) (diagnostics : List Diagnostic)
    (files : List SourceFile) : ExceptT Failure m EmitReport := do
  let result ←
    if dryRun then pure (EmitResult.preview (files.map fun f => (f.path, f.content)))
    else do
      let (written, unchanged) ← writeFiles files
      pure (.written dir written unchanged)
  return ⟨diagnostics, declarations, declarations - files.length, result⟩

def runEmit (o : EmitOptions) : ExceptT Failure m EmitReport := do
  let config ← loadConfig o.config
  let dir := o.output.getD config.dir
  let t ← loadTable o.input
  let report := checkTable o.input t
  if !report.isValid then throw (.invalid report)
  let δ := config.dialect (o.language.getD config.language)
  let rule ← staleRule o.input o.force config.staleness
  let files ← staleFiles δ dir rule t
  reportFiles dir o.dryRun t.size report.diagnostics files

def runCheck (input : Path) : ExceptT Failure m CheckReport := do
  let report := checkTable input (← loadTable input)
  if report.isValid then return report else throw (.invalid report)

end Commands

inductive Complaint
  | text (s : String)
  | diagnostic (code message : String) (help : Option String)
  | chain (messages : List String)
deriving DecidableEq, Repr

namespace Complaint

def render : Complaint → String
  | text s => s
  | diagnostic code message help =>
    linesText (["Error: " ++ code, "  × " ++ message] ++ (help.map ("  help: " ++ ·)).toList)
  | chain messages => linesText ("Error:" :: messages.map ("  " ++ ·))

end Complaint

structure Outcome where
  exitCode : Nat
  out : String := ""
  err : Complaint := .text ""
deriving DecidableEq, Repr

namespace Outcome

def ofFailure : Failure → Outcome
  | .config e => { exitCode := 1, err := .diagnostic e.code e.message none }
  | .load input e => { exitCode := 1, err := .chain ["Failed to load declarations from " ++ input, e.message] }
  | .invalid report => { exitCode := 1, out := report.out, err := .text report.err }
  | .age input => { exitCode := 1, err := .chain ["Failed to read modification time of " ++ input] }
  | .emission e => { exitCode := 1, err := .diagnostic e.code e.message e.help? }
  | .write e => { exitCode := 1, err := .chain ["Failed to write generated files", e.message] }

def ofCheck : Except Failure CheckReport → Outcome
  | .ok report => { exitCode := 0, out := report.out, err := .text report.err }
  | .error e => ofFailure e

def ofEmit : Except Failure EmitReport → Outcome
  | .ok report => { exitCode := 0, out := report.out, err := .text report.err }
  | .error e => ofFailure e

end Outcome

def usage : String :=
  linesText ["Emit C# class sources from resolved declarations", "",
    "Usage: crossgen <COMMAND>", "",
    "Commands:",
    "  emit INPUT [-c CONFIG] [-o OUTPUT] [-l LANGUAGE] [-f] [--dry-run]",
    "  check INPUT | --list-lints",
    "  completions SHELL",
    "  help [COMMAND]"]

def completionWords : List String :=
  commandNames ++ ["--config", "--output", "--language", "--force", "--dry-run", "--list-lints", "--help"]

def ofStop : Stop → Outcome
  | .help => { exitCode := 0, out := usage }
  | .version => { exitCode := 0, out := linesText [versionText] }
  | .misuse => { exitCode := 2, err := .text usage }

def run {m : Type → Type} [Monad m] [FileStore m] (args : List String) : m Outcome := do
  match parse args with
  | .error stop => return ofStop stop
  | .ok (.emit options) => return .ofEmit (← (runEmit options).run)
  | .ok (.check input) => return .ofCheck (← (runCheck input).run)
  | .ok .listLints => return { exitCode := 0, out := lintsText Lint.builtin }
  | .ok (.completions _) => return { exitCode := 0, out := linesText completionWords }

end Stencil.CommandLine
