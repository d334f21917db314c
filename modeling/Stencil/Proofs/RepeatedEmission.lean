import Mathlib.Data.List.Pairwise
import Stencil.Proofs.EmitPreparation

/-! Emitting twice. Main statement: if the files of an emission are different ones and get in the way of nothing that it
reads, then a second run finds all as the first one left it and writes nothing. -/
namespace Stencil

namespace FileTree

variable {t t' : FileTree} {changed made : List Location} {p q : Path} {content : String}

theorem frames_clock (changed made : List Location) (t : FileTree) (clock : Nat) :
    Frames changed made t { t with clock } where
  directories l hl := by
    obtain ⟨time, htime⟩ := hl
    by_cases hout : l.all Location.isWayOut = true
    · exact ⟨clock, by rw [get?, if_pos hout]⟩
    · rw [get?, if_neg hout] at htime
      exact ⟨time, by rw [get?, if_neg hout, htime]⟩
  files hfile _ := by
    rw [get?] at hfile ⊢
    split at hfile
    · cases hfile
    · next hout => rw [if_neg hout, hfile]
  missing hnone _ := by
    rw [get?] at hnone ⊢
    split at hnone
    · cases hnone
    · next hout => rw [if_neg hout, hnone]

theorem Frames.text? (h : Frames changed made t t') (hp : location p ∉ changed) (htext : t.text? p = some content) :
    t'.text? p = some content := by
  obtain ⟨time, hnode⟩ := text?_eq_some.1 htext
  exact text?_eq_some.2 ⟨time, h.node? hp hnode⟩

theorem isStale_of_missing (rule : StaleRule) (h : t.node? p = none) : t.isStale rule p = true := by
  cases rule with
  | always => rfl
  | missing =>
    change ((t.node? p).map FileNode.modified).isNone = true
    rw [h]
    rfl
  | olderThan time =>
    change (((t.node? p).map FileNode.modified).map (decide <| · < time)).getD true = true
    rw [h]
    rfl

theorem isStale_congr (rule : StaleRule) (h : t'.node? p = t.node? p) : t'.isStale rule p = t.isStale rule p := by
  cases rule with
  | always => rfl
  | missing =>
    change ((t'.node? p).map FileNode.modified).isNone = ((t.node? p).map FileNode.modified).isNone
    rw [h]
  | olderThan time =>
    change (((t'.node? p).map FileNode.modified).map (decide <| · < time)).getD true =
      (((t.node? p).map FileNode.modified).map (decide <| · < time)).getD true
    rw [h]

theorem Frames.isStale (h : Frames changed made t t') (hp : location p ∉ changed)
    (hfile : (t.node? p).any FileNode.isDirectory = false) {rule : StaleRule} (hstale : t.isStale rule p = false) :
    t'.isStale rule p = false := by
  cases hn : t.node? p with
  | none => exact (Bool.false_ne_true (hstale.symm.trans (isStale_of_missing rule hn))).elim
  | some n =>
    cases n with
    | directory time => simp [hn, FileNode.isDirectory] at hfile
    | file content time => rw [isStale_congr rule ((h.node? hp hn).trans hn.symm), hstale]

theorem not_mem_rewritten (hp : p.toList.getLast? = some 's') (h : location p ≠ location q) :
    location p ∉ rewritten q := by
  intro hmem
  rw [rewritten, List.mem_cons, List.mem_singleton] at hmem
  obtain hstaging | hplace := hmem
  · obtain ⟨dir, name, hlocation, hname⟩ := exists_location_concat hp (by decide) (by decide)
    obtain ⟨dir', name', hlocation', hname'⟩ := exists_location_concat (getLast?_stagingPath q) (by decide) (by decide)
    rw [hlocation, hlocation'] at hstaging
    obtain ⟨-, hsame⟩ := List.append_inj' hstaging rfl
    rw [List.singleton_inj.1 hsame, hname'] at hname
    cases hname
  · exact h hplace

end FileTree

theorem Declaration.getLast?_outputPath {δ : Dialect} (hδ : δ.extension = "cs") (root : Path) (d : Declaration) :
    (d.outputPath δ root).toList.getLast? = some 's' := by
  refine Path.getLast?_push ?_
  rw [hδ, String.toList_append, List.getLast?_append_of_ne_nil _ (by decide)]
  rfl

namespace Table

variable (t : Table) (δ : Dialect) (stale : String → Path → Bool) (root : Path)

def sourceFile? (entry : Handle × Declaration) : Option SourceFile :=
  if stale entry.2.qualifiedName (entry.2.outputPath δ root) then
    (entry.2.render δ t).toOption.map fun listing =>
      ⟨entry.1, entry.2.qualifiedName, entry.2.outputPath δ root, listing, δ.indent⟩
  else none

variable {t δ stale root} {entry : Handle × Declaration} {f : SourceFile} {files : List SourceFile}

theorem emitDeclaration_eq_ok (entry : Handle × Declaration) {file? : Option SourceFile}
    (h : t.emitDeclaration δ stale root entry.1 entry.2 = .ok file?) : t.sourceFile? δ stale root entry = file? := by
  rw [emitDeclaration] at h
  rw [sourceFile?]
  split at h
  · next hstale =>
    obtain ⟨listing, hlisting, hfile⟩ := bind_eq_ok.1 h
    obtain rfl := Except.ok.inj hfile
    rw [if_pos hstale, hlisting]
    rfl
  · next hstale =>
    obtain rfl := Except.ok.inj h
    rw [if_neg hstale]

theorem emitAll_eq_ok (h : t.emitAll δ stale root = .ok files) :
    files = t.entries.filterMap (t.sourceFile? δ stale root) := by
  obtain ⟨found, hfound, hfiles⟩ := bind_eq_ok.1 h
  obtain rfl := Except.ok.inj hfiles
  have hentries : List.Forall₂ (fun entry file? => t.sourceFile? δ stale root entry = file?) t.entries found :=
    (mapM_eq_ok.1 hfound).imp fun entry _ hentry => emitDeclaration_eq_ok entry hentry
  rw [← List.forall₂_map_left_iff (R := Eq), List.forall₂_eq_eq_eq] at hentries
  rw [← hentries, List.filterMap_map]
  rfl

theorem sourceFile?_eq_some (h : t.sourceFile? δ stale root entry = some f) :
    stale entry.2.qualifiedName (entry.2.outputPath δ root) = true ∧ f.path = entry.2.outputPath δ root := by
  rw [sourceFile?] at h
  split at h
  · next hstale =>
    obtain ⟨listing, -, rfl⟩ := Option.map_eq_some_iff.1 h
    exact ⟨hstale, rfl⟩
  · cases h

theorem exists_declaration_of_emitAll (h : t.emitAll δ stale root = .ok files) (hf : f ∈ files) :
    ∃ d ∈ t.declarations, stale d.qualifiedName (d.outputPath δ root) = true ∧ f.path = d.outputPath δ root := by
  rw [emitAll_eq_ok h] at hf
  obtain ⟨entry, hentry, hfile⟩ := List.mem_filterMap.1 hf
  exact ⟨entry.2, mem_declarations_of_entries hentry, sourceFile?_eq_some hfile⟩

theorem pairwise_of_emitAll {R : Path → Path → Prop} (h : t.emitAll δ stale root = .ok files)
    (hR : (t.declarations.map (·.outputPath δ root)).Pairwise R) : files.Pairwise fun f g => R f.path g.path := by
  have hdeclarations : t.declarations = t.entries.map Prod.snd := by
    simp [entries, Function.comp_def]
  rw [hdeclarations, List.map_map, List.pairwise_map] at hR
  rw [emitAll_eq_ok h, List.pairwise_filterMap]
  refine hR.imp fun {entry entry'} hpaths f hf g hg => ?_
  rw [(sourceFile?_eq_some hf).2, (sourceFile?_eq_some hg).2]
  exact hpaths

theorem exists_emitAll_subset (stale' : String → Path → Bool) (h : t.emitAll δ stale root = .ok files) (hless : ∀ d ∈ t.declarations,
    stale' d.qualifiedName (d.outputPath δ root) = true → stale d.qualifiedName (d.outputPath δ root) = true) :
    ∃ files', t.emitAll δ stale' root = .ok files' ∧ files' ⊆ files := by
  have hrender := exists_emitAll_iff.1 ⟨files, h⟩
  obtain ⟨files', hfiles'⟩ := exists_emitAll_iff.2 fun d hd hstale => hrender d hd (hless d hd hstale)
  refine ⟨files', hfiles', fun f hf => ?_⟩
  rw [emitAll_eq_ok hfiles'] at hf
  obtain ⟨entry, hentry, hfile⟩ := List.mem_filterMap.1 hf
  have hstale' := (sourceFile?_eq_some hfile).1
  rw [emitAll_eq_ok h]
  refine List.mem_filterMap.2 ⟨entry, hentry, ?_⟩
  rw [sourceFile?, if_pos (hless _ (mem_declarations_of_entries hentry) hstale')]
  rwa [sourceFile?, if_pos hstale'] at hfile

end Table

namespace CommandLine

open FileTree

variable {o : EmitOptions} {t t' : FileTree} {changed made : List Location} {files : List SourceFile}

section Answers

variable {config : Config} {table : Table} {rule : StaleRule} {p input : Path}

theorem answer_openConfig_eq_ok : answer (openConfig p) t = .ok config ↔
    ∃ text, t.text? p = some text ∧ Config.ofText ((Path.fileName? p).getD configFile) text = .ok config := by
  rw [answer, openConfig, perform_bind_of_ok (perform_readText p t)]
  cases t.text? p with
  | none => simp
  | some text => cases hconfig : Config.ofText ((Path.fileName? p).getD configFile) text <;> simp [hconfig]

theorem answer_loadTable_eq_ok : answer (loadTable input) t = .ok table ↔
    ∃ text, t.text? input = some text ∧ Table.ofText text = .ok table := by
  rw [answer, loadTable, perform_bind_of_ok (perform_readText input t)]
  cases t.text? input with
  | none => simp
  | some text => cases htable : Table.ofText text <;> simp [htable]

theorem perform_modified {ε : Type} (p : Path) (t : FileTree) :
    perform (liftM (FileStore.modified p : StateM FileTree _) : ExceptT ε _ _) t =
      (.ok ((t.node? p).map FileNode.modified), t) := rfl

theorem node?_configFile (t : FileTree) : t.node? configFile = t.get? (location configFile) := by
  cases hget : t.get? (location configFile) with
  | none =>
    cases hn : t.node? configFile with
    | none => rfl
    | some n => exact nomatch hget.symm.trans (node?_eq_some.1 hn).2
  | some n =>
    have hlocation : location configFile = [configFile] := by decide +kernel
    have hwalk : t.walk [] [configFile] = .ok [configFile] := by
      refine walk_cons_eq_ok.2 ⟨⟨t.clock, rfl⟩, .inr (.inr ⟨by decide, by decide, by decide, ?_, rfl⟩)⟩
      rw [hlocation] at hget
      rw [List.nil_append, hget]
      rfl
    have hsegments : Path.segments configFile = [configFile] := by decide +kernel
    refine node?_eq_some.2 ⟨resolve_eq_ok.2 ⟨by decide, by decide +kernel, ?_⟩, hget⟩
    rw [hsegments, hlocation]
    exact hwalk

theorem answer_loadConfig_none : answer (loadConfig none) t =
    if (t.node? configFile).isSome then answer (openConfig configFile) t else .ok {} := by
  rw [answer, loadConfig, perform_bind_of_ok (perform_modified configFile t), Option.isSome_map]
  split <;> rfl

theorem openConfig_kept (h : Frames changed made t t') (hp : location p ∉ changed)
    (hconfig : answer (openConfig p) t = .ok config) : answer (openConfig p) t' = .ok config := by
  obtain ⟨text, htext, hparse⟩ := answer_openConfig_eq_ok.1 hconfig
  exact answer_openConfig_eq_ok.2 ⟨text, h.text? hp htext, hparse⟩

theorem loadTable_kept (h : Frames changed made t t') (hinput : location input ∉ changed)
    (htable : answer (loadTable input) t = .ok table) : answer (loadTable input) t' = .ok table := by
  obtain ⟨text, htext, hparse⟩ := answer_loadTable_eq_ok.1 htable
  exact answer_loadTable_eq_ok.2 ⟨text, h.text? hinput htext, hparse⟩

theorem loadConfig_kept {p? : Option Path} (h : Frames changed made t t') (hp : location (p?.getD configFile) ∉ changed)
    (hmissing : t.node? (p?.getD configFile) = none → location (p?.getD configFile) ∉ made)
    (hconfig : answer (loadConfig p?) t = .ok config) : answer (loadConfig p?) t' = .ok config := by
  cases p? with
  | some p => exact openConfig_kept h hp hconfig
  | none =>
    rw [answer_loadConfig_none] at hconfig ⊢
    cases hnode : t.node? configFile with
    | none =>
      have hnode' : t'.node? configFile = none := by
        rw [node?_configFile] at hnode ⊢
        exact h.missing hnode (hmissing ((node?_configFile t).trans hnode))
      rw [hnode] at hconfig
      rwa [hnode']
    | some n =>
      rw [hnode] at hconfig
      have hopen : answer (openConfig configFile) t' = .ok config := openConfig_kept h hp hconfig
      obtain ⟨text, htext, -⟩ := answer_openConfig_eq_ok.1 hopen
      obtain ⟨time, hnode'⟩ := text?_eq_some.1 htext
      rwa [hnode']

theorem staleRule_kept (h : Frames changed made t t') (hinput : location input ∉ changed)
    (htable : answer (loadTable input) t = .ok table) (force : Bool) (staleness : Staleness) :
    answer (staleRule input force staleness) t' = answer (staleRule input force staleness) t := by
  obtain ⟨text, htext, -⟩ := answer_loadTable_eq_ok.1 htable
  obtain ⟨time, hnode⟩ := text?_eq_some.1 htext
  have hnode' := h.node? hinput hnode
  unfold staleRule
  split
  · rfl
  · cases staleness with
    | always => rfl
    | missing => rfl
    | newer =>
      rw [answer, answer, perform_bind_of_ok (perform_modified input t), perform_bind_of_ok (perform_modified input t'),
        hnode, hnode']
      rfl

end Answers

theorem writeFiles_frames {r : List Path × List Path} (h : perform (writeFiles files) t = (.ok r, t')) :
    Frames (files.flatMap fun f => rewritten f.path) (files.flatMap fun f => prepared f.path) t t' := by
  induction files generalizing t r with
  | nil =>
    cases h
    exact .refl _ _ _
  | cons f files ih =>
    obtain ⟨outcome, t₁, rest, hf, hrest⟩ := writeFiles_cons_eq_ok h
    have hfirst := (updateText_eq_ok hf).1.mono (List.subset_append_left _ (files.flatMap fun f => rewritten f.path))
      (List.subset_append_left _ (files.flatMap fun f => prepared f.path))
    have hothers := (ih hrest).mono (List.subset_append_right (rewritten f.path) _)
      (List.subset_append_right (prepared f.path) _)
    exact hfirst.trans hothers

theorem writeFiles_texts {r : List Path × List Path} (h : perform (writeFiles files) t = (.ok r, t'))
    (hends : ∀ f ∈ files, f.path.toList.getLast? = some 's')
    (hfiles : files.Pairwise fun f g => location f.path ≠ location g.path) :
    ∀ f ∈ files, t'.text? f.path = some f.content := by
  induction files generalizing t r with
  | nil => simp
  | cons f files ih =>
    rw [List.pairwise_cons] at hfiles
    rw [List.forall_mem_cons] at hends
    obtain ⟨outcome, t₁, rest, hf, hrest⟩ := writeFiles_cons_eq_ok h
    rw [List.forall_mem_cons]
    refine ⟨(writeFiles_frames hrest).text? ?_ (updateText_eq_ok hf).2, ih hrest hends.2 hfiles.2⟩
    -- what the later files change does not reach this one
    intro hmem
    obtain ⟨g, hg, hplace⟩ := List.mem_flatMap.1 hmem
    exact not_mem_rewritten hends.1 (hfiles.1 g hg) hplace

theorem writeFiles_again (h : ∀ f ∈ files, t.text? f.path = some f.content) :
    perform (writeFiles files) t = (.ok ([], files.map SourceFile.path), t) := by
  induction files with
  | nil => rfl
  | cons f files ih =>
    rw [List.forall_mem_cons] at h
    rw [perform_writeFiles_of_ok (updateText_of_text? h.1), ih h.2]
    rfl

/-- The files of an emission are different ones, and none is at or beneath a file that the emission reads. -/
structure EmitOptions.Distinct (o : EmitOptions) (t : FileTree) (paths : List Path) : Prop where
  files : paths.Pairwise (location · ≠ location ·)
  noDirectory : ∀ p ∈ paths, (t.node? p).any FileNode.isDirectory = false
  input : ∀ p ∈ paths, ¬location o.input <+: location p
  config : ∀ p ∈ paths, ¬location (o.config.getD configFile) <+: location p

/-- No file is staged where the emission reads, and none has a way on which the missing configuration would be made. -/
structure EmitOptions.Undisturbed (o : EmitOptions) (t : FileTree) (paths : List Path) : Prop where
  input : ∀ p ∈ paths, location (FileStore.stagingPath p) ≠ location o.input
  config : ∀ p ∈ paths, location (FileStore.stagingPath p) ≠ location (o.config.getD configFile)
  missing : t.node? (o.config.getD configFile) = none → ∀ p ∈ paths, location (o.config.getD configFile) ∉ places p

theorem EmitOptions.getLast?_path (o : EmitOptions) (config : Config) (d : Declaration) :
    (o.path config d).toList.getLast? = some 's' := by
  refine d.getLast?_outputPath ?_ _
  rw [dialect]
  cases o.language.getD config.language
  rfl

namespace Preparation

def paths (a : Preparation o t) : List Path := a.table.declarations.map (o.path a.config)

def rewrittenPlaces (a : Preparation o t) : List Location := a.files.flatMap fun f => rewritten f.path

def preparedPlaces (a : Preparation o t) : List Location := a.files.flatMap fun f => prepared f.path

variable {a : Preparation o t}

theorem mem_paths {f : SourceFile} (hf : f ∈ a.files) : f.path ∈ a.paths ∧ t.isStale a.rule f.path = true := by
  obtain ⟨d, hd, hstale, hpath⟩ := Table.exists_declaration_of_emitAll a.files_eq hf
  rw [hpath]
  exact ⟨List.mem_map_of_mem hd, hstale⟩

theorem not_mem_rewrittenPlaces {l : Location} (hfiles : ∀ p ∈ a.paths, ¬l <+: location p)
    (hstaging : ∀ p ∈ a.paths, location (FileStore.stagingPath p) ≠ l) : l ∉ a.rewrittenPlaces := by
  intro hmem
  obtain ⟨f, hf, hl⟩ := List.mem_flatMap.1 hmem
  have hpath := (mem_paths hf).1
  rw [rewritten, List.mem_cons, List.mem_singleton] at hl
  obtain heq | heq := hl
  · exact hstaging f.path hpath heq.symm
  · exact hfiles f.path hpath (heq ▸ List.prefix_rfl)

theorem not_mem_preparedPlaces {l : Location} (hplaces : ∀ p ∈ a.paths, l ∉ places p)
    (hstaging : ∀ p ∈ a.paths, location (FileStore.stagingPath p) ≠ l) : l ∉ a.preparedPlaces := by
  intro hmem
  obtain ⟨f, hf, hl⟩ := List.mem_flatMap.1 hmem
  have hpath := (mem_paths hf).1
  obtain heq | hplace := List.mem_cons.1 hl
  · exact hstaging f.path hpath heq.symm
  · exact hplaces f.path hpath hplace

theorem isStale_kept (hdistinct : o.Distinct t a.paths) (hframes : Frames a.rewrittenPlaces a.preparedPlaces t t')
    {d : Declaration} (hd : d ∈ a.table.declarations) (hstale : t'.isStale a.rule (o.path a.config d) = true) :
    t.isStale a.rule (o.path a.config d) = true := by
  by_contra hfresh
  rw [Bool.not_eq_true] at hfresh
  have hmem : o.path a.config d ∈ a.paths := List.mem_map_of_mem hd
  refine Bool.false_ne_true ((hframes.isStale ?_ (hdistinct.noDirectory _ hmem) hfresh).symm.trans hstale)
  intro hplace
  obtain ⟨f, hf, hplace⟩ := List.mem_flatMap.1 hplace
  -- a file that is written was stale, so it is another one
  obtain ⟨hpath, hfstale⟩ := mem_paths hf
  have hne : o.path a.config d ≠ f.path := by
    intro heq
    rw [heq, hfstale] at hfresh
    cases hfresh
  have hsymm : Std.Symm fun p q : Path => location p ≠ location q := ⟨fun _ _ h => h.symm⟩
  exact not_mem_rewritten (o.getLast?_path a.config d) (hdistinct.files.forall hmem hpath hne) hplace

theorem writeFiles_of_run {report : EmitReport} (hdry : o.dryRun = false)
    (h : perform (runEmit o) t = (.ok report, t')) : ∃ (a : Preparation o t) (r : List Path × List Path),
      perform (writeFiles a.files) t = (.ok r, t') := by
  obtain ⟨e, he, -⟩ | ⟨a, ha⟩ := CommandLine.perform_runEmit o t
  · exact nomatch he.symm.trans h
  · rw [ha, finish, hdry, perform_reportFiles, Prod.mk.injEq] at h
    obtain ⟨r, hr, -⟩ := map_eq_ok.1 h.1
    exact ⟨a, r, Prod.ext hr h.2⟩

/-- What was prepared for a run can be prepared again after it, with no other files than before. -/
theorem exists_again (hdistinct : o.Distinct t a.paths) (hundisturbed : o.Undisturbed t a.paths)
    (hframes : Frames a.rewrittenPlaces a.preparedPlaces t t') : ∃ b : Preparation o t', b.files ⊆ a.files := by
  have hinput := not_mem_rewrittenPlaces hdistinct.input hundisturbed.input
  have hconfig := not_mem_rewrittenPlaces hdistinct.config hundisturbed.config
  have hmissing (hnone : t.node? (o.config.getD configFile) = none) :=
    not_mem_preparedPlaces (hundisturbed.missing hnone) hundisturbed.config
  obtain ⟨files, hfiles, hsubset⟩ := Table.exists_emitAll_subset (fun _ p => t'.isStale a.rule p) a.files_eq
    fun d hd => isStale_kept hdistinct hframes hd
  have hrule := (staleRule_kept hframes hinput a.table_eq o.force a.config.staleness).trans a.rule_eq
  exact ⟨⟨a.config, a.table, a.rule, files, loadConfig_kept hframes hconfig hmissing a.config_eq,
    loadTable_kept hframes hinput a.table_eq, a.valid, hrule, hfiles⟩, hsubset⟩

def idleReport (a : Preparation o t) : EmitReport where
  diagnostics := a.table.validate Lint.builtin
  declarations := a.table.size
  skipped := a.table.size - a.files.length
  result := .written (o.directory a.config) [] (a.files.map SourceFile.path)

theorem perform_idle (hdry : o.dryRun = false) (htexts : ∀ f ∈ a.files, t.text? f.path = some f.content) :
    perform (runEmit o) t = (.ok a.idleReport, t) := by
  rw [a.perform_runEmit, finish, hdry, perform_reportFiles, writeFiles_again htexts]
  rfl

end Preparation

/-- An emission that succeeded succeeds again at any later time, writes nothing and leaves the tree as it is. -/
theorem emission_again_writes_nothing {args : List String} {report : EmitReport}
    (hargs : parse args = .ok (.emit o)) (hdry : o.dryRun = false) (hrun : perform (runEmit o) t = (.ok report, t'))
    (hpaths : ∀ config table, answer (loadConfig o.config) t = .ok config → answer (loadTable o.input) t = .ok table →
      o.Distinct t (table.declarations.map (o.path config)) ∧
        o.Undisturbed t (table.declarations.map (o.path config)))
    (clock : Nat) : ∃ report' dir unchanged,
      perform (runEmit o) { t' with clock } = (.ok report', { t' with clock }) ∧
      (run args : StateM FileTree Outcome).run { t' with clock } = (.ofEmit (.ok report'), { t' with clock }) ∧
      report'.result = .written dir [] unchanged := by
  obtain ⟨a, r, hwrite⟩ := Preparation.writeFiles_of_run hdry hrun
  obtain ⟨hdistinct, hundisturbed⟩ := hpaths a.config a.table a.config_eq a.table_eq
  have hframes : Frames a.rewrittenPlaces a.preparedPlaces t { t' with clock } :=
    (writeFiles_frames hwrite).trans (frames_clock _ _ t' clock)
  have hends (f : SourceFile) (hf : f ∈ a.files) : f.path.toList.getLast? = some 's' := by
    obtain ⟨d, -, hd⟩ := List.mem_map.1 (Preparation.mem_paths hf).1
    rw [← hd]
    exact o.getLast?_path a.config d
  have htexts (f : SourceFile) (hf : f ∈ a.files) : FileTree.text? { t' with clock } f.path = some f.content := by
    have htext := writeFiles_texts hwrite hends (Table.pairwise_of_emitAll a.files_eq hdistinct.files) f hf
    exact (frames_clock [] [] t' clock).text? List.not_mem_nil htext
  obtain ⟨b, hb⟩ := Preparation.exists_again hdistinct hundisturbed hframes
  have hagain := Preparation.perform_idle hdry fun f hf => htexts f (hb hf)
  refine ⟨b.idleReport, _, _, hagain, ?_, rfl⟩
  rw [run_emit hargs, hagain]

theorem paths_of_loaded {config config' : Config} {table : Table} {paths : List Path}
    (hconfig : answer (loadConfig o.config) t = .ok config)
    (hpaths : ((answer (loadTable o.input) t).map fun table => table.declarations.map (o.path config)) = .ok paths)
    (hconfig' : answer (loadConfig o.config) t = .ok config') (htable : answer (loadTable o.input) t = .ok table) :
    table.declarations.map (o.path config') = paths := by
  obtain rfl := Except.ok.inj (hconfig.symm.trans hconfig')
  rw [htable] at hpaths
  exact Except.ok.inj hpaths

def gameTree : FileTree where
  clock := 5
  nodes := [(["game.json"], .file ("[\x7b\"kind\":\"class\",\"package\":\"g\",\"name\":\"A\"\x7d," ++
    "\x7b\"kind\":\"class\",\"package\":\"g\",\"name\":\"B\"\x7d]") 7)]

def gameOptions : EmitOptions := { input := "game.json", output := some "out" }

theorem game_distinct : gameOptions.Distinct gameTree ["out/g/A.cs", "out/g/B.cs"] where
  files := by decide +kernel
  noDirectory := by decide +kernel
  input := by decide +kernel
  config := by decide +kernel

theorem game_undisturbed : gameOptions.Undisturbed gameTree ["out/g/A.cs", "out/g/B.cs"] where
  input := by decide +kernel
  config := by decide +kernel
  missing := by decide +kernel

theorem game_again_writes_nothing : ∃ report t', perform (runEmit gameOptions) gameTree = (.ok report, t') ∧
    ∃ report' dir unchanged, perform (runEmit gameOptions) { t' with clock := 6 } = (.ok report', { t' with clock := 6 }) ∧
      (run ["emit", "game.json", "-o", "out"] : StateM FileTree Outcome).run { t' with clock := 6 } =
        (.ofEmit (.ok report'), { t' with clock := 6 }) ∧ report'.result = .written dir [] unchanged := by
  have hargs : parse ["emit", "game.json", "-o", "out"] = .ok (.emit gameOptions) := by decide +kernel
  have hconfig : answer (loadConfig gameOptions.config) gameTree = .ok {} := by decide +kernel
  have hpaths : ((answer (loadTable gameOptions.input) gameTree).map fun table =>
      table.declarations.map (gameOptions.path {})) = .ok ["out/g/A.cs", "out/g/B.cs"] := by decide +kernel
  have hfirst : (answer (runEmit gameOptions) gameTree).isOk = true := by decide +kernel
  obtain ⟨report, hreport⟩ := exists_ok hfirst
  have hrun := perform_of_answer hreport
  refine ⟨report, _, hrun, emission_again_writes_nothing hargs rfl hrun ?_ 6⟩
  intro config table hconfig' htable
  rw [paths_of_loaded hconfig hpaths hconfig' htable]
  exact ⟨game_distinct, game_undisturbed⟩

def Repeatable (o : EmitOptions) (t : FileTree) : Prop := ∀ report t',
  perform (runEmit o) t = (.ok report, t') → (∀ config table, answer (loadConfig o.config) t = .ok config →
    answer (loadTable o.input) t = .ok table → o.Distinct t (table.declarations.map (o.path config))) →
  ∃ report', perform (runEmit o) t' = (.ok report', t')

theorem not_repeatable {paths : List Path} (hconfig : answer (loadConfig o.config) t = .ok {})
    (hpaths : ((answer (loadTable o.input) t).map fun table => table.declarations.map (o.path {})) = .ok paths)
    (hdistinct : o.Distinct t paths) (hruns : ((answer (runEmit o) t).isOk,
      (answer (runEmit o) (perform (runEmit o) t).2).isOk) = (true, false)) : ¬Repeatable o t := by
  intro h
  obtain ⟨hfirst, hsecond⟩ := Prod.mk.inj hruns
  obtain ⟨report, hreport⟩ := exists_ok hfirst
  obtain ⟨report', hreport'⟩ := h report _ (perform_of_answer hreport) fun config table hconfig' htable =>
    paths_of_loaded hconfig hpaths hconfig' htable ▸ hdistinct
  rw [answer, hreport'] at hsecond
  cases hsecond

def loneText : String := "[\x7b\"kind\":\"class\",\"name\":\"Main\"\x7d]"

/-- The input stands where the file is staged. -/
def stagedTree : FileTree := { clock := 5, nodes := [([".Main.cs.tmp"], .file loneText 3)] }

def stagedOptions : EmitOptions := { input := ".Main.cs.tmp", output := some ".", force := true }

theorem staged_distinct : stagedOptions.Distinct stagedTree ["./Main.cs"] where
  files := by decide +kernel
  noDirectory := by decide +kernel
  input := by decide +kernel
  config := by decide +kernel

/-- The way to the file leads through a directory with the name of the configuration. -/
def detourTree : FileTree := { clock := 5, nodes := [(["lone.json"], .file loneText 3)] }

def detourOptions : EmitOptions := { input := "lone.json", output := some "crossgen.toml/..", force := true }

theorem detour_distinct : detourOptions.Distinct detourTree ["crossgen.toml/../Main.cs"] where
  files := by decide +kernel
  noDirectory := by decide +kernel
  input := by decide +kernel
  config := by decide +kernel

theorem staged_and_detour_not_repeatable :
    ¬Repeatable stagedOptions stagedTree ∧ ¬Repeatable detourOptions detourTree := by
  constructor
  · exact not_repeatable (by decide +kernel) (by decide +kernel) staged_distinct (by decide +kernel)
  · exact not_repeatable (by decide +kernel) (by decide +kernel) detour_distinct (by decide +kernel)

end CommandLine

end Stencil
