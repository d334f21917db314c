import Mathlib.Data.List.Forall2
import Stencil.Proofs.RepeatedEmission

/-! Emission by staleness. Main statement: an emission renders the stale declarations and no others, the file of each
does not depend on what else is stale, and the report accounts for every declaration of the table. -/
namespace Stencil

structure SourceFile.Renders (t : Table) (δ : Dialect) (root : Path) (entry : Handle × Declaration) (f : SourceFile) :
    Prop where
  handle : f.handle = entry.1
  qualifiedName : f.qualifiedName = entry.2.qualifiedName
  path : f.path = entry.2.outputPath δ root
  listing : entry.2.render δ t = .ok f.listing
  indent : f.indent = δ.indent

namespace Table

variable (t : Table) (δ : Dialect) (stale : String → Path → Bool) (root : Path)

def staleEntries : List (Handle × Declaration) :=
  t.entries.filter fun entry => stale entry.2.qualifiedName (entry.2.outputPath δ root)

def stalePaths : List Path := (t.staleEntries δ stale root).map fun entry => entry.2.outputPath δ root

theorem length_stalePaths_le : (t.stalePaths δ stale root).length ≤ t.size := by
  have hentries : t.entries.length = t.size := by simp [entries, size]
  rw [stalePaths, List.length_map, ← hentries]
  exact List.length_filter_le _ _

variable {t δ stale root} {files files' : List SourceFile}

theorem sourceFile?_renders {entry : Handle × Declaration} {listing : Listing}
    (hstale : stale entry.2.qualifiedName (entry.2.outputPath δ root) = true) (h : entry.2.render δ t = .ok listing) :
    ∃ f, t.sourceFile? δ stale root entry = some f ∧ f.Renders t δ root entry := by
  refine ⟨⟨entry.1, entry.2.qualifiedName, entry.2.outputPath δ root, listing, δ.indent⟩, ?_, rfl, rfl, rfl, h, rfl⟩
  rw [sourceFile?, if_pos hstale, h]
  rfl

theorem forall₂_renders {entries : List (Handle × Declaration)}
    (h : ∀ entry ∈ entries, stale entry.2.qualifiedName (entry.2.outputPath δ root) = true →
      ∃ listing, entry.2.render δ t = .ok listing) :
    List.Forall₂ (SourceFile.Renders t δ root)
      (entries.filter fun entry => stale entry.2.qualifiedName (entry.2.outputPath δ root))
      (entries.filterMap (t.sourceFile? δ stale root)) := by
  induction entries with
  | nil => exact .nil
  | cons entry entries ih =>
    obtain ⟨hentry, hentries⟩ := List.forall_mem_cons.1 h
    by_cases hstale : stale entry.2.qualifiedName (entry.2.outputPath δ root) = true
    · obtain ⟨listing, hlisting⟩ := hentry hstale
      obtain ⟨f, hf, hrenders⟩ := sourceFile?_renders hstale hlisting
      rw [List.filter_cons, if_pos hstale, List.filterMap_cons_some hf]
      exact .cons hrenders (ih hentries)
    · have hnone : t.sourceFile? δ stale root entry = none := if_neg hstale
      rw [List.filter_cons, if_neg hstale, List.filterMap_cons_none hnone]
      exact ih hentries

theorem renders_of_emitAll (h : t.emitAll δ stale root = .ok files) :
    List.Forall₂ (SourceFile.Renders t δ root) (t.staleEntries δ stale root) files := by
  have hrender := exists_emitAll_iff.1 ⟨files, h⟩
  rw [emitAll_eq_ok h]
  exact forall₂_renders fun entry hentry => hrender entry.2 (mem_declarations_of_entries hentry)

theorem paths_of_emitAll (h : t.emitAll δ stale root = .ok files) :
    files.map SourceFile.path = t.stalePaths δ stale root := by
  have hpaths := (renders_of_emitAll h).imp fun _ _ hrenders => hrenders.path.symm
  rw [stalePaths, eq_comm, ← List.forall₂_eq_eq_eq, List.forall₂_map_left_iff, List.forall₂_map_right_iff]
  exact hpaths

theorem filter_sourceFile? (stale' : String → Path → Bool) (entry : Handle × Declaration) :
    (t.sourceFile? δ stale root entry).filter (fun f => stale' f.qualifiedName f.path) =
      t.sourceFile? δ (fun name p => stale name p && stale' name p) root entry := by
  cases hstale : stale entry.2.qualifiedName (entry.2.outputPath δ root) with
  | false => simp [sourceFile?, hstale]
  | true => cases hlisting : entry.2.render δ t <;> simp [sourceFile?, Except.toOption, Option.filter, hstale, hlisting]

theorem filter_emitAll {stale' : String → Path → Bool} (h : t.emitAll δ stale root = .ok files)
    (h' : t.emitAll δ stale' root = .ok files') :
    (files.filter fun f => stale' f.qualifiedName f.path) = files'.filter fun f => stale f.qualifiedName f.path := by
  rw [emitAll_eq_ok h, emitAll_eq_ok h', List.filter_filterMap, List.filter_filterMap]
  simp only [filter_sourceFile?, Bool.and_comm]

end Table

namespace CommandLine

open FileTree

variable {t t' : FileTree} {files : List SourceFile} {outcomes : List WriteOutcome} {paths : List Path}

inductive Updates : FileTree → List SourceFile → List WriteOutcome → FileTree → Prop
  | nil (t : FileTree) : Updates t [] [] t
  | cons {t t₁ t' : FileTree} {f : SourceFile} {files : List SourceFile} {outcome : WriteOutcome}
      {outcomes : List WriteOutcome} (h : perform (FileStore.updateText f.path f.content) t = (.ok outcome, t₁))
      (hrest : Updates t₁ files outcomes t') : Updates t (f :: files) (outcome :: outcomes) t'

theorem Updates.length_eq (h : Updates t files outcomes t') : outcomes.length = files.length := by
  induction h with
  | nil t => rfl
  | cons _ _ ih => rw [List.length_cons, List.length_cons, ih]

def tallies (paths : List Path) (outcomes : List WriteOutcome) : List Path × List Path :=
  (paths.zip outcomes).foldr (fun entry => tally entry.1 entry.2) ([], [])

theorem tallies_cons (p : Path) (outcome : WriteOutcome) :
    tallies (p :: paths) (outcome :: outcomes) = tally p outcome (tallies paths outcomes) := rfl

theorem Updates.perform_writeFiles (h : Updates t files outcomes t') :
    perform (writeFiles files) t = (.ok (tallies (files.map SourceFile.path) outcomes), t') := by
  induction h with
  | nil t => rfl
  | cons h _ ih =>
    rw [perform_writeFiles_of_ok h, ih]
    rfl

theorem exists_updates {r : List Path × List Path} (h : perform (writeFiles files) t = (.ok r, t')) :
    ∃ outcomes, Updates t files outcomes t' := by
  induction files generalizing t r with
  | nil =>
    obtain ⟨-, rfl⟩ := Prod.mk.inj h
    exact ⟨[], .nil t⟩
  | cons f files ih =>
    obtain ⟨outcome, t₁, rest, hf, hfiles⟩ := writeFiles_cons_eq_ok h
    obtain ⟨outcomes, hrest⟩ := ih hfiles
    exact ⟨outcome :: outcomes, .cons hf hrest⟩

def writtenReport (dir : Path) (declarations : Nat) (diagnostics : List Diagnostic) (paths : List Path)
    (outcomes : List WriteOutcome) : EmitReport :=
  ⟨diagnostics, declarations, declarations - paths.length,
    .written dir (tallies paths outcomes).1 (tallies paths outcomes).2⟩

theorem perform_reportFiles_eq_ok (dir : Path) (declarations : Nat) (diagnostics : List Diagnostic)
    {report : EmitReport} : perform (reportFiles dir false declarations diagnostics files) t = (.ok report, t') ↔
      ∃ outcomes, Updates t files outcomes t' ∧
        report = writtenReport dir declarations diagnostics (files.map SourceFile.path) outcomes := by
  constructor
  · intro h
    rw [perform_reportFiles, Prod.mk.injEq] at h
    obtain ⟨r, hr, hreport⟩ := map_eq_ok.1 h.1
    have hwrite : perform (writeFiles files) t = (.ok r, t') := Prod.ext hr h.2
    obtain ⟨outcomes, hupdates⟩ := exists_updates hwrite
    have hr := hwrite.symm.trans hupdates.perform_writeFiles
    rw [Prod.mk.injEq, Except.ok.injEq] at hr
    refine ⟨outcomes, hupdates, ?_⟩
    rw [← hreport, hr.1, writtenReport, List.length_map]
  · rintro ⟨outcomes, hupdates, rfl⟩
    rw [perform_reportFiles, hupdates.perform_writeFiles, writtenReport, List.length_map]
    rfl

def EmitResult.Lists (paths : List Path) : EmitResult → Prop
  | .written _ changed kept => changed.Sublist paths ∧ kept.Sublist paths ∧ (changed ++ kept).Perm paths
  | .preview files => files.map Prod.fst = paths

def EmitResult.emitted : EmitResult → Nat
  | .written _ changed kept => changed.length + kept.length
  | .preview files => files.length

theorem EmitResult.Lists.emitted_eq {result : EmitResult} (h : result.Lists paths) : result.emitted = paths.length := by
  cases result with
  | written dir changed kept => rw [emitted, ← List.length_append, h.2.2.length_eq]
  | preview files =>
    rw [Lists] at h
    rw [emitted, ← h, List.length_map]

theorem lists_tallies (dir : Path) (h : outcomes.length = paths.length) :
    EmitResult.Lists paths (.written dir (tallies paths outcomes).1 (tallies paths outcomes).2) := by
  induction paths generalizing outcomes with
  | nil => exact ⟨.slnil, .slnil, .nil⟩
  | cons p paths ih =>
    obtain ⟨outcome, outcomes, rfl⟩ := List.exists_cons_of_length_eq_add_one h
    obtain ⟨hwritten, hunchanged, hperm⟩ := ih (Nat.succ.inj h)
    rw [tallies_cons]
    cases outcome with
    | written => exact ⟨hwritten.cons_cons p, hunchanged.cons p, hperm.cons p⟩
    | unchanged =>
      exact ⟨hwritten.cons p, hunchanged.cons_cons p, List.perm_middle.trans (hperm.cons p)⟩

/-- A report that counts every declaration of a table, and lists the files at the paths of those that it emits. -/
structure EmitReport.Accounts (declarations : Nat) (paths : List Path) (report : EmitReport) : Prop where
  declarations_eq : report.declarations = declarations
  lists : report.result.Lists paths
  total : report.result.emitted + report.skipped = declarations

theorem EmitResult.Lists.accounts {result : EmitResult} (h : result.Lists paths) {declarations : Nat}
    (hle : paths.length ≤ declarations) (diagnostics : List Diagnostic) :
    EmitReport.Accounts declarations paths ⟨diagnostics, declarations, declarations - paths.length, result⟩ where
  declarations_eq := rfl
  lists := h
  -- the subtraction does not stop at zero
  total := by
    rw [h.emitted_eq]
    exact Nat.add_sub_cancel' hle

def previewReport (declarations : Nat) (diagnostics : List Diagnostic) (files : List SourceFile) : EmitReport :=
  ⟨diagnostics, declarations, declarations - files.length, .preview (files.map fun f => (f.path, f.content))⟩

theorem accounts_of_reportFiles {dir : Path} {dryRun : Bool} {declarations : Nat} {diagnostics : List Diagnostic}
    {report : EmitReport} (hle : files.length ≤ declarations)
    (h : perform (reportFiles dir dryRun declarations diagnostics files) t = (.ok report, t')) :
    report.Accounts declarations (files.map SourceFile.path) := by
  rw [← List.length_map SourceFile.path] at hle
  cases dryRun with
  | true =>
    obtain rfl : previewReport declarations diagnostics files = report := Except.ok.inj (Prod.mk.inj h).1
    have hlists : EmitResult.Lists (files.map SourceFile.path) (.preview (files.map fun f => (f.path, f.content))) := by
      rw [EmitResult.Lists, List.map_map]
      rfl
    simpa [previewReport] using hlists.accounts hle diagnostics
  | false =>
    obtain ⟨outcomes, hupdates, rfl⟩ := (perform_reportFiles_eq_ok dir declarations diagnostics).1 h
    have hlength : outcomes.length = (files.map SourceFile.path).length := by
      rw [hupdates.length_eq, List.length_map]
    exact (lists_tallies dir hlength).accounts hle diagnostics

/-- An emission succeeds exactly if all that is stale can be rendered. Its files are those of the stale declarations, they
are the same whatever else is stale, and a report on them lists each of them and counts the rest. -/
theorem stale_files_emitted_and_accounted (t : Table) (δ : Dialect) (root : Path) (stale : String → Path → Bool) :
    ((∃ files, t.emitAll δ stale root = .ok files) ↔ ∀ d ∈ t.declarations,
      stale d.qualifiedName (d.outputPath δ root) = true → ∃ listing, d.render δ t = .ok listing) ∧
    ∀ files, t.emitAll δ stale root = .ok files →
      List.Forall₂ (SourceFile.Renders t δ root) (t.staleEntries δ stale root) files ∧
      (∀ stale' files', t.emitAll δ stale' root = .ok files' →
        (files.filter fun f => stale' f.qualifiedName f.path) = files'.filter fun f => stale f.qualifiedName f.path) ∧
      ∀ dir diagnostics tree,
        perform (reportFiles dir true t.size diagnostics files) tree =
          (.ok (previewReport t.size diagnostics files), tree) ∧
        (∀ report tree', perform (reportFiles dir false t.size diagnostics files) tree = (.ok report, tree') ↔
          ∃ outcomes, Updates tree files outcomes tree' ∧
            report = writtenReport dir t.size diagnostics (t.stalePaths δ stale root) outcomes) ∧
        ∀ dryRun report tree', perform (reportFiles dir dryRun t.size diagnostics files) tree = (.ok report, tree') →
          report.Accounts t.size (t.stalePaths δ stale root) := by
  refine ⟨Table.exists_emitAll_iff, fun files hfiles => ?_⟩
  have hpaths := Table.paths_of_emitAll hfiles
  refine ⟨Table.renders_of_emitAll hfiles, fun _ _ hfiles' => Table.filter_emitAll hfiles hfiles', ?_⟩
  intro dir diagnostics tree
  refine ⟨rfl, fun report tree' => ?_, fun dryRun report tree' hreport => ?_⟩
  · rw [← hpaths]
    exact perform_reportFiles_eq_ok dir t.size diagnostics
  · have hle := t.length_stalePaths_le δ stale root
    rw [← hpaths, List.length_map] at hle
    rw [← hpaths]
    exact accounts_of_reportFiles hle hreport

def deck : Table where
  declarations :=
    [{ kind := .classKind none, package := "g", name := "A" },
      { kind := .classKind none, package := "g", name := "B", extraImports := [.named ⟨"C", some ⟨9⟩⟩] },
      { kind := .classKind none, package := "g", name := "D" }]

def deckTree : FileTree where
  clock := 5
  nodes := [(["out"], .directory 1), (["out", "g"], .directory 1), (["out", "g", "A.cs"],
    .file "using System;\n\nnamespace g\n\x7b\n    public class A\n    \x7b\n    \x7d\n\x7d\n" 1)]

def exceptB (name : String) (_ : Path) : Bool := name != "g.B"

def onlyD (name : String) (_ : Path) : Bool := name == "g.D"

theorem deck_accounted : (¬∃ files, deck.emitAll .csharp (fun _ _ => true) "out" = .ok files) ∧
    ∃ files files' report tree', deck.emitAll .csharp exceptB "out" = .ok files ∧
      deck.emitAll .csharp onlyD "out" = .ok files' ∧
      List.Forall₂ (SourceFile.Renders deck .csharp "out") (deck.staleEntries .csharp exceptB "out") files ∧
      (files.filter fun f => onlyD f.qualifiedName f.path) = (files'.filter fun f => exceptB f.qualifiedName f.path) ∧
      perform (reportFiles "out" false deck.size [] files) deckTree = (.ok report, tree') ∧
      report = ⟨[], 3, 1, .written "out" ["out/g/D.cs"] ["out/g/A.cs"]⟩ ∧
      report.Accounts deck.size (deck.stalePaths .csharp exceptB "out") := by
  have hmissing : (deck.emitAll .csharp (fun _ _ => true) "out").isOk = false := by decide +kernel
  have honly : (deck.emitAll .csharp onlyD "out").isOk = true := by decide +kernel
  have hreports : ((deck.emitAll .csharp exceptB "out").map fun files =>
      answer (reportFiles "out" false deck.size [] files) deckTree) =
        .ok (.ok ⟨[], 3, 1, .written "out" ["out/g/D.cs"] ["out/g/A.cs"]⟩) := by
    decide +kernel
  obtain ⟨files, hfiles, hreport⟩ := map_eq_ok.1 hreports
  obtain ⟨files', hfiles'⟩ := exists_ok honly
  have hrun := perform_of_answer hreport
  obtain ⟨hrenders, hfilter, haccounts⟩ :=
    (stale_files_emitted_and_accounted deck .csharp "out" exceptB).2 files hfiles
  refine ⟨?_, files, files', _, _, hfiles, hfiles', hrenders, hfilter onlyD files' hfiles', hrun, rfl, ?_⟩
  · rintro ⟨all, hall⟩
    rw [hall] at hmissing
    cases hmissing
  · exact (haccounts "out" [] deckTree).2.2 false _ _ hrun

end CommandLine

end Stencil
