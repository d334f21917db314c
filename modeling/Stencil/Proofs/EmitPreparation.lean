import Stencil.CommandLine.Run
import Stencil.Proofs.EmissionFaults
import Stencil.Proofs.FileUpdates

/-! What an emission has done before it writes. Main statement: an emission that is blocked fails and leaves the tree
as it was, and one that is not can fail only by a write. -/
namespace Stencil

section Reading

variable {ε α β : Type} {x : ExceptT ε (StateM FileTree) α} {f : α → ExceptT ε (StateM FileTree) β} {t : FileTree}

def answer (x : ExceptT ε (StateM FileTree) α) (t : FileTree) : Except ε α := (perform x t).1

theorem perform_of_answer {a : α} (h : answer x t = .ok a) : perform x t = (.ok a, (perform x t).2) := Prod.ext h rfl

def ReadOnly (x : ExceptT ε (StateM FileTree) α) : Prop := ∀ t, (perform x t).2 = t

namespace ReadOnly

theorem perform_eq (hx : ReadOnly x) (t : FileTree) : perform x t = (answer x t, t) := Prod.ext rfl (hx t)

theorem bind (hx : ReadOnly x) (hf : ∀ a, ReadOnly (f a)) : ReadOnly (x >>= f) := by
  intro t
  cases ha : answer x t with
  | error e => rw [perform_bind_of_error (ha ▸ hx.perform_eq t)]
  | ok a => rw [perform_bind_of_ok (ha ▸ hx.perform_eq t), hf a t]

theorem pure (a : α) : ReadOnly (pure a : ExceptT ε (StateM FileTree) α) := fun _ => rfl

theorem throw (e : ε) : ReadOnly (throw e : ExceptT ε (StateM FileTree) α) := fun _ => rfl

theorem readText (p : Path) :
    ReadOnly (liftM (FileStore.readText p : StateM FileTree (Option String)) : ExceptT ε (StateM FileTree) _) := by
  intro t
  rw [FileTree.perform_readText]

theorem modified (p : Path) :
    ReadOnly (liftM (FileStore.modified p : StateM FileTree (Option Nat)) : ExceptT ε (StateM FileTree) _) :=
  fun _ => rfl

theorem perform_bind (hx : ReadOnly x) (t : FileTree) :
    (∃ e, answer x t = .error e ∧ perform (x >>= f) t = (.error e, t)) ∨
      ∃ a, answer x t = .ok a ∧ perform (x >>= f) t = perform (f a) t := by
  cases ha : answer x t with
  | error e => exact .inl ⟨e, rfl, perform_bind_of_error (ha ▸ hx.perform_eq t)⟩
  | ok a => exact .inr ⟨a, rfl, perform_bind_of_ok (ha ▸ hx.perform_eq t)⟩

end ReadOnly

theorem perform_filterAuxM {p : α → ExceptT ε (StateM FileTree) Bool} {q : α → Bool}
    (hp : ∀ a, perform (p a) t = (.ok (q a), t)) (xs ys : List α) :
    perform (List.filterAuxM p xs ys) t = (.ok ((xs.filter q).reverse ++ ys), t) := by
  induction xs generalizing ys with
  | nil => rfl
  | cons x xs ih =>
    rw [List.filterAuxM, perform_bind_of_ok (hp x), ih]
    cases hx : q x <;> simp [hx]

theorem perform_filterM {p : α → ExceptT ε (StateM FileTree) Bool} {q : α → Bool}
    (hp : ∀ a, perform (p a) t = (.ok (q a), t)) (xs : List α) :
    perform (xs.filterM p) t = (.ok (xs.filter q), t) := by
  rw [List.filterM, perform_bind_of_ok (perform_filterAuxM hp xs []), perform_pure, List.append_nil, List.reverse_reverse]

end Reading

namespace FileTree

def isStale (t : FileTree) (rule : StaleRule) (p : Path) : Bool :=
  ((FileStore.isStale rule p : StateM FileTree Bool).run t).1

theorem run_isStale (rule : StaleRule) (p : Path) (t : FileTree) :
    (FileStore.isStale rule p : StateM FileTree Bool).run t = (t.isStale rule p, t) := by
  cases rule <;> rfl

end FileTree

namespace Table

variable {t : Table} {δ : Dialect} {stale stale' : String → Path → Bool} {root : Path}

theorem mem_declarations_of_entries {entry : Handle × Declaration} (h : entry ∈ t.entries) :
    entry.2 ∈ t.declarations := by
  obtain ⟨⟨d, i⟩, hmem, rfl⟩ := List.mem_map.1 h
  exact List.fst_mem_of_mem_zipIdx hmem

theorem exists_emitAll_iff : (∃ files, t.emitAll δ stale root = .ok files) ↔
    ∀ d ∈ t.declarations, stale d.qualifiedName (d.outputPath δ root) = true → ∃ listing, d.render δ t = .ok listing := by
  rw [← errorOf?_eq_none, errorOf?_emitAll_stale, List.findSome?_eq_none_iff]
  refine forall₂_congr fun d _ => ?_
  rw [ite_eq_right_iff, errorOf?_eq_none]

theorem emitAll_congr (h : ∀ d ∈ t.declarations,
    stale d.qualifiedName (d.outputPath δ root) = stale' d.qualifiedName (d.outputPath δ root)) :
    t.emitAll δ stale root = t.emitAll δ stale' root := by
  rw [emitAll, emitAll, mapM_congr]
  rintro ⟨handle, d⟩ hentry
  change t.emitDeclaration δ stale root handle d = t.emitDeclaration δ stale' root handle d
  rw [emitDeclaration, emitDeclaration, h d (mem_declarations_of_entries hentry)]

end Table

namespace CommandLine

open FileTree

variable {o : EmitOptions} {t : FileTree}

theorem readOnly_openConfig (p : Path) : ReadOnly (openConfig p : ExceptT Failure (StateM FileTree) Config) := by
  refine (ReadOnly.readText p).bind fun text => ?_
  split
  · exact .throw _
  · split
    · exact .pure _
    · exact .throw _

theorem readOnly_loadConfig (p? : Option Path) :
    ReadOnly (loadConfig p? : ExceptT Failure (StateM FileTree) Config) := by
  cases p? with
  | some p => exact readOnly_openConfig p
  | none =>
    refine (ReadOnly.modified configFile).bind fun time => ?_
    split
    · exact readOnly_openConfig configFile
    · exact .pure _

theorem readOnly_loadTable (input : Path) : ReadOnly (loadTable input : ExceptT Failure (StateM FileTree) Table) := by
  refine (ReadOnly.readText input).bind fun text => ?_
  split
  · exact .throw _
  · split
    · exact .pure _
    · exact .throw _

theorem readOnly_staleRule (input : Path) (force : Bool) (staleness : Staleness) :
    ReadOnly (staleRule input force staleness : ExceptT Failure (StateM FileTree) StaleRule) := by
  unfold staleRule
  split
  · exact .pure _
  · split
    · exact .pure _
    · exact .pure _
    · refine (ReadOnly.modified input).bind fun time => ?_
      split
      · exact .pure _
      · exact .throw _

theorem perform_staleFiles (δ : Dialect) (dir : Path) (rule : StaleRule) (table : Table) (t : FileTree) :
    perform (staleFiles δ dir rule table) t =
      ((table.emitAll δ (fun _ p => t.isStale rule p) dir).mapError .emission, t) := by
  have hfilter (paths : List Path) := perform_filterM (ε := Failure) (q := t.isStale rule)
    (p := fun p => liftM (FileStore.isStale rule p : StateM FileTree Bool))
    (fun p => by rw [perform_lift, run_isStale]) paths
  have hstale : table.emitAll δ (fun _ p =>
        ((table.declarations.map (·.outputPath δ dir)).filter (t.isStale rule)).contains p) dir =
      table.emitAll δ (fun _ p => t.isStale rule p) dir := by
    -- the paths among which stale ones are looked for are those of the declarations
    refine Table.emitAll_congr fun d hd => ?_
    rw [Bool.eq_iff_iff, List.contains_iff_mem, List.mem_filter]
    exact and_iff_right (List.mem_map_of_mem hd)
  rw [staleFiles, perform_bind_of_ok (hfilter _), hstale]
  cases table.emitAll δ (fun _ p => t.isStale rule p) dir <;> rfl

def EmitOptions.directory (o : EmitOptions) (config : Config) : Path := o.output.getD config.dir

def EmitOptions.dialect (o : EmitOptions) (config : Config) : Dialect :=
  config.dialect (o.language.getD config.language)

def EmitOptions.path (o : EmitOptions) (config : Config) (d : Declaration) : Path :=
  d.outputPath (o.dialect config) (o.directory config)

structure Preparation (o : EmitOptions) (t : FileTree) where
  config : Config
  table : Table
  rule : StaleRule
  files : List SourceFile
  config_eq : answer (loadConfig o.config) t = .ok config
  table_eq : answer (loadTable o.input) t = .ok table
  valid : (checkTable o.input table).isValid = true
  rule_eq : answer (staleRule o.input o.force config.staleness) t = .ok rule
  files_eq : table.emitAll (o.dialect config) (fun _ p => t.isStale rule p) (o.directory config) = .ok files

instance : Subsingleton (Preparation o t) where
  allEq a b := by
    obtain ⟨config, table, rule, files, hconfig, htable, -, hrule, hfiles⟩ := a
    obtain ⟨config', table', rule', files', hconfig', htable', -, hrule', hfiles'⟩ := b
    obtain rfl := Except.ok.inj (hconfig.symm.trans hconfig')
    obtain rfl := Except.ok.inj (htable.symm.trans htable')
    obtain rfl := Except.ok.inj (hrule.symm.trans hrule')
    obtain rfl := Except.ok.inj (hfiles.symm.trans hfiles')
    rfl

def Preparation.finish (a : Preparation o t) : ExceptT Failure (StateM FileTree) EmitReport :=
  reportFiles (o.directory a.config) o.dryRun a.table.size (a.table.validate Lint.builtin) a.files

inductive Blocked (o : EmitOptions) (t : FileTree) : Prop
  | config {e : Failure} (h : answer (loadConfig o.config) t = .error e)
  | load {e : Failure} (h : answer (loadTable o.input) t = .error e)
  | lint {table : Table} {finding : Diagnostic} (htable : answer (loadTable o.input) t = .ok table)
      (hfinding : finding ∈ table.validate Lint.builtin) (hsevere : finding.severity = .error)
  | age {config : Config} {e : Failure} (hconfig : answer (loadConfig o.config) t = .ok config)
      (h : answer (staleRule o.input o.force config.staleness) t = .error e)
  | render {config : Config} {table : Table} {rule : StaleRule} {d : Declaration} {e : EmitError}
      (hconfig : answer (loadConfig o.config) t = .ok config) (htable : answer (loadTable o.input) t = .ok table)
      (hrule : answer (staleRule o.input o.force config.staleness) t = .ok rule) (hd : d ∈ table.declarations)
      (hstale : t.isStale rule (o.path config d) = true) (h : d.render (o.dialect config) table = .error e)

theorem isValid_eq_false_iff (input : Path) {table : Table} : (checkTable input table).isValid = false ↔
    ∃ finding ∈ table.validate Lint.builtin, finding.severity = .error := by
  simp [CheckReport.isValid, CheckReport.errors, checkTable, Diagnostic.errors, Diagnostic.isError]

theorem Blocked.isEmpty (h : Blocked o t) : IsEmpty (Preparation o t) := by
  refine ⟨fun a => ?_⟩
  cases h with
  | config h => exact nomatch h.symm.trans a.config_eq
  | load h => exact nomatch h.symm.trans a.table_eq
  | lint htable hfinding hsevere =>
    obtain rfl := Except.ok.inj (htable.symm.trans a.table_eq)
    have hinvalid := (isValid_eq_false_iff o.input).2 ⟨_, hfinding, hsevere⟩
    exact Bool.false_ne_true (hinvalid.symm.trans a.valid)
  | age hconfig h =>
    obtain rfl := Except.ok.inj (hconfig.symm.trans a.config_eq)
    exact nomatch h.symm.trans a.rule_eq
  | render hconfig htable hrule hd hstale h =>
    obtain rfl := Except.ok.inj (hconfig.symm.trans a.config_eq)
    obtain rfl := Except.ok.inj (htable.symm.trans a.table_eq)
    obtain rfl := Except.ok.inj (hrule.symm.trans a.rule_eq)
    obtain ⟨listing, hlisting⟩ := Table.exists_emitAll_iff.1 ⟨_, a.files_eq⟩ _ hd hstale
    exact nomatch h.symm.trans hlisting

/-- Before an emission writes, it only reads. -/
theorem perform_runEmit (o : EmitOptions) (t : FileTree) :
    (∃ e, perform (runEmit o) t = (.error e, t) ∧ Blocked o t) ∨
      ∃ a : Preparation o t, perform (runEmit o) t = perform a.finish t := by
  unfold runEmit
  -- each stage starts from the same tree, and the first that fails ends the run
  obtain ⟨e, he, hrun⟩ | ⟨config, hconfig, hrun⟩ := (readOnly_loadConfig o.config).perform_bind t
  · exact .inl ⟨e, hrun, .config he⟩
  rw [hrun]
  clear hrun
  obtain ⟨e, he, hrun⟩ | ⟨table, htable, hrun⟩ := (readOnly_loadTable o.input).perform_bind t
  · exact .inl ⟨e, hrun, .load he⟩
  rw [hrun, perform_unless]
  clear hrun
  split
  · next hvalid =>
    obtain ⟨e, he, hrun⟩ | ⟨rule, hrule, hrun⟩ := (readOnly_staleRule o.input o.force config.staleness).perform_bind t
    · exact .inl ⟨e, hrun, .age hconfig he⟩
    rw [hrun]
    clear hrun
    have hstale := perform_staleFiles (o.dialect config) (o.directory config) rule table t
    cases hfiles : table.emitAll (o.dialect config) (fun _ p => t.isStale rule p) (o.directory config) with
    | error e =>
      rw [hfiles] at hstale
      have herror := errorOf?_eq_some.2 hfiles
      rw [Table.errorOf?_emitAll_stale] at herror
      obtain ⟨d, hd, hfault⟩ := List.exists_of_findSome?_eq_some herror
      rw [Option.ite_none_right_eq_some, errorOf?_eq_some] at hfault
      exact .inl ⟨.emission e, perform_bind_of_error hstale, .render hconfig htable hrule hd hfault.1 hfault.2⟩
    | ok files =>
      rw [hfiles] at hstale
      exact .inr ⟨⟨config, table, rule, files, hconfig, htable, hvalid, hrule, hfiles⟩, perform_bind_of_ok hstale⟩
  · next hinvalid =>
    rw [Bool.not_eq_true] at hinvalid
    obtain ⟨finding, hfinding, hsevere⟩ := (isValid_eq_false_iff o.input).1 hinvalid
    exact .inl ⟨_, rfl, .lint htable hfinding hsevere⟩

theorem Preparation.perform_runEmit (a : Preparation o t) : perform (runEmit o) t = perform a.finish t := by
  obtain ⟨e, -, hblocked⟩ | ⟨b, hrun⟩ := CommandLine.perform_runEmit o t
  · exact (hblocked.isEmpty.false a).elim
  · rw [hrun, Subsingleton.elim b a]

section Writing

variable {f : SourceFile} {files : List SourceFile} {t' : FileTree}

def tally (p : Path) : WriteOutcome → List Path × List Path → List Path × List Path
  | .written, (written, unchanged) => (p :: written, unchanged)
  | .unchanged, (written, unchanged) => (written, p :: unchanged)

theorem perform_writeFiles_of_error {e : WriteError}
    (h : perform (FileStore.updateText f.path f.content) t = (.error e, t')) :
    perform (writeFiles (f :: files)) t = (.error (.write e), t') := by
  rw [writeFiles, perform_caught_bind h]
  rfl

theorem perform_writeFiles_of_ok {outcome : WriteOutcome}
    (h : perform (FileStore.updateText f.path f.content) t = (.ok outcome, t')) :
    perform (writeFiles (f :: files)) t =
      ((perform (writeFiles files) t').1.map (tally f.path outcome), (perform (writeFiles files) t').2) := by
  rw [writeFiles, perform_caught_bind h]
  rcases hrest : perform (writeFiles files) t' with ⟨e | r, t''⟩
  · cases outcome <;> exact perform_bind_of_error hrest
  · cases outcome <;> exact perform_bind_of_ok hrest

theorem writeFiles_cons_eq_ok {r : List Path × List Path} (h : perform (writeFiles (f :: files)) t = (.ok r, t')) :
    ∃ outcome t₁ rest, perform (FileStore.updateText f.path f.content) t = (.ok outcome, t₁) ∧
      perform (writeFiles files) t₁ = (.ok rest, t') := by
  rcases hf : perform (FileStore.updateText f.path f.content) t with ⟨e | outcome, t₁⟩
  · rw [perform_writeFiles_of_error hf] at h
    cases h
  · rw [perform_writeFiles_of_ok hf, Prod.mk.injEq] at h
    obtain ⟨rest, hrest, -⟩ := map_eq_ok.1 h.1
    exact ⟨outcome, t₁, rest, rfl, Prod.ext hrest h.2⟩

theorem answer_writeFiles_eq_error {e : Failure} (h : answer (writeFiles files) t = .error e) : ∃ w, e = .write w := by
  induction files generalizing t with
  | nil => cases h
  | cons f files ih =>
    rw [answer] at h
    rcases hf : perform (FileStore.updateText f.path f.content) t with ⟨w | outcome, t'⟩
    · rw [perform_writeFiles_of_error hf] at h
      exact ⟨w, (Except.error.inj h).symm⟩
    · rw [perform_writeFiles_of_ok hf] at h
      have herror := errorOf?_eq_some.2 h
      rw [errorOf?_map, errorOf?_eq_some] at herror
      exact ih (t := t') herror

theorem perform_reportFiles (dir : Path) (declarations : Nat) (diagnostics : List Diagnostic)
    (files : List SourceFile) (t : FileTree) : perform (reportFiles dir false declarations diagnostics files) t =
      ((perform (writeFiles files) t).1.map fun r =>
        ⟨diagnostics, declarations, declarations - files.length, .written dir r.1 r.2⟩,
        (perform (writeFiles files) t).2) := by
  rw [reportFiles, if_neg Bool.false_ne_true]
  rcases hwrite : perform (writeFiles files) t with ⟨e | r, t'⟩
  · exact perform_bind_of_error hwrite
  · exact perform_bind_of_ok hwrite

theorem Preparation.answer_finish_eq_error {a : Preparation o t} {e : Failure} (h : answer a.finish t = .error e) :
    ∃ w, e = .write w := by
  rw [finish] at h
  cases hdry : o.dryRun with
  | true =>
    rw [hdry] at h
    cases h
  | false =>
    have herror := errorOf?_eq_some.2 h
    rw [hdry, answer, perform_reportFiles, errorOf?_map, errorOf?_eq_some] at herror
    exact answer_writeFiles_eq_error herror

end Writing

theorem run_emit {args : List String} (hargs : parse args = .ok (.emit o)) (t : FileTree) :
    (run args : StateM FileTree Outcome).run t = (.ofEmit (perform (runEmit o) t).1, (perform (runEmit o) t).2) := by
  rw [run, hargs]
  rfl

/-- An emission that is blocked fails with the tree as it was, and one that is not fails only if a file cannot be
written. -/
theorem blocked_emission_changes_nothing {args : List String} (hargs : parse args = .ok (.emit o)) (t : FileTree) :
    (Blocked o t → ∃ e, perform (runEmit o) t = (.error e, t) ∧
      (run args : StateM FileTree Outcome).run t = (.ofFailure e, t) ∧ (Outcome.ofFailure e).exitCode = 1) ∧
    (¬Blocked o t → ∀ e, answer (runEmit o) t = .error e → ∃ w, e = .write w) := by
  obtain ⟨e, hrun, hblocked⟩ | ⟨a, hrun⟩ := perform_runEmit o t
  · refine ⟨fun _ => ⟨e, hrun, ?_, ?_⟩, fun h => absurd hblocked h⟩
    · rw [run_emit hargs, hrun]
      rfl
    · cases e <;> rfl
  · refine ⟨fun h => (h.isEmpty.false a).elim, fun _ e he => ?_⟩
    rw [answer, hrun] at he
    exact a.answer_finish_eq_error he

def draftText : String :=
  "[\x7b\"kind\":\"class\",\"name\":\"Main\"\x7d,\x7b\"kind\":\"class\",\"name\":\"Board\",\"methods\":[" ++
  "\x7b\"is_constructor\":true,\"name\":\"\",\"body\":[\"outer-call(1);\"]\x7d]\x7d]"

def draftTree : FileTree := { clock := 5, nodes := [(["draft.json"], .file draftText 3)] }

def draftOptions : EmitOptions := { input := "draft.json" }

theorem draft_blocked : Blocked draftOptions draftTree := by
  have hconfig : answer (loadConfig draftOptions.config) draftTree = .ok {} := by decide +kernel
  have hrule : answer (staleRule draftOptions.input draftOptions.force (Config.staleness {})) draftTree =
      .ok (.olderThan 3) := by
    decide +kernel
  have hread : ((answer (loadTable draftOptions.input) draftTree).map fun table => table.declarations.map fun d =>
      (draftOptions.path {} d, errorOf? (d.render (draftOptions.dialect {}) table))) =
        .ok [("generated/Main.cs", none), ("generated/Board.cs", some (.unknownDelegation "Board" "outer-call(1);"))] := by
    decide +kernel
  obtain ⟨table, htable, hdecls⟩ := map_eq_ok.1 hread
  obtain ⟨main, rest, hmain, -, hrest⟩ := List.map_eq_cons_iff.1 hdecls
  obtain ⟨board, hboard, hfault⟩ := List.map_eq_singleton_iff.1 hrest
  rw [Prod.mk.injEq, errorOf?_eq_some] at hfault
  refine .render hconfig htable hrule (d := board) (by simp [hmain, hboard]) ?_ hfault.2
  rw [hfault.1]
  decide +kernel

theorem draft_changes_nothing : parse ["emit", "draft.json"] = .ok (.emit draftOptions) ∧
    Blocked draftOptions draftTree ∧ ∃ e, perform (runEmit draftOptions) draftTree = (.error e, draftTree) ∧
      (run ["emit", "draft.json"] : StateM FileTree Outcome).run draftTree = (.ofFailure e, draftTree) ∧
      (Outcome.ofFailure e).exitCode = 1 := by
  have hargs : parse ["emit", "draft.json"] = .ok (.emit draftOptions) := by decide +kernel
  exact ⟨hargs, draft_blocked, (blocked_emission_changes_nothing hargs draftTree).1 draft_blocked⟩

end CommandLine

end Stencil
