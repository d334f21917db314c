import Stencil.Proofs.ArenaLinks
import Stencil.Proofs.TableRuns

/-! Arenas under inserts and links in any order, some of which may fail.
Main statements: along every run the index and the declarations stay in step, a failure changes neither, and an arena
does what its table does; so a link refuses the first ambiguous reference or else replaces all at once. -/
namespace Stencil

theorem NameMap.insert_of_lookup_eq_none {α : Type} {m : NameMap α} {name : String} (h : m.lookup name = none)
    (value : α) : m.insert name value = m ++ [(name, value)] := by
  rw [NameMap.insert]
  induction m with
  | nil => rfl
  | cons entry m ih =>
    obtain ⟨key, old⟩ := entry
    rw [List.lookup_cons] at h
    by_cases hkey : name = key
    · simp [hkey] at h
    · rw [beq_false_of_ne hkey] at h
      rw [alter, if_neg (Ne.symm hkey), ih h, List.cons_append]

theorem Table.lookup_zipIdx (ds : List Declaration) (q : String) (start : Nat) :
    ((ds.zipIdx start).map fun entry => (entry.1.qualifiedName, handleAt entry.2)).lookup q =
      (ds.findIdx? (·.qualifiedName == q)).map (fun i => handleAt (start + i)) := by
  induction ds generalizing start with
  | nil => rfl
  | cons d ds ih =>
    rw [List.zipIdx_cons, List.map_cons, List.lookup_cons, List.findIdx?_cons, ih]
    by_cases hq : d.qualifiedName = q
    · simp [hq]
    · have hq' : (q == d.qualifiedName) = false := by simpa using Ne.symm hq
      simp only [hq', beq_eq_false_iff_ne.2 hq, Option.map_map, Function.comp_def, Bool.false_eq_true, if_false]
      congr 1
      funext i
      congr 1
      omega

namespace Arena

open Table (Operation History handleAt)

variable {a : Arena} {d : Declaration}

theorem InStep.lookup?_table (ha : a.InStep) (q : String) : a.lookup? q = a.toTable.lookup? q := by
  have hzip := Table.lookup_zipIdx a.declarations q 0
  rw [lookup?, ha, Table.entries, List.map_map]
  simpa [Table.lookup?, Function.comp_def] using hzip

def extend (a : Arena) (d : Declaration) : Arena :=
  ⟨⟨a.declarations ++ [d]⟩, a.byName ++ [(d.qualifiedName, a.nextHandle)]⟩

theorem perform_insert (a : Arena) (d : Declaration) :
    (a.lookup? d.qualifiedName ≠ none ∧ perform (insert d) a = (.error (.duplicate d.qualifiedName), a)) ∨
      a.lookup? d.qualifiedName = none ∧ perform (insert d) a = (.ok a.nextHandle, a.extend d) := by
  cases hq : a.lookup? d.qualifiedName with
  | some h =>
    refine .inl ⟨by simp, ?_⟩
    simp only [insert, perform_get_bind, hq, Option.isSome_some, if_true]
    rfl
  | none =>
    refine .inr ⟨rfl, ?_⟩
    rw [extend, ← NameMap.insert_of_lookup_eq_none hq]
    simp only [insert, perform_get_bind, hq, Option.isSome_none, Bool.false_eq_true, if_false]
    rfl

/-- Everything that an operation can do. -/
inductive Step (a : Arena) : Arena → Prop
  | refused : Step a a
  | inserted {d : Declaration} (hnew : a.lookup? d.qualifiedName = none) : Step a (a.extend d)
  | linked : Step a a.relinked

def step : Operation → Arena → Arena
  | .insert d, a => (perform (insert d) a).2
  | .link, a => (perform link a).2

def run : List Operation → Arena → Arena
  | [], a => a
  | op :: ops, a => run ops (step op a)

theorem step_step (op : Operation) (a : Arena) : Step a (step op a) := by
  cases op with
  | insert d =>
    obtain ⟨-, hinsert⟩ | ⟨hnew, hinsert⟩ := a.perform_insert d
    · rw [step, hinsert]
      exact .refused
    · rw [step, hinsert]
      exact .inserted hnew
  | link =>
    obtain ⟨e, -, hlink⟩ | ⟨-, hlink⟩ := a.perform_link
    · rw [step, hlink]
      exact .refused
    · rw [step, hlink]
      exact .linked

structure Sound (a : Arena) : Prop where
  inStep : a.InStep
  namesUnique : a.NamesUnique

variable {a' : Arena}

theorem Step.sound (h : Step a a') (ha : a.Sound) : a'.Sound := by
  cases h with
  | refused => exact ha
  | inserted hnew =>
    constructor
    · rw [InStep, extend, Table.entries_append, List.map_append, ← ha.inStep]
      rfl
    · exact Table.append_namesUnique (ha.inStep.lookup?_table _ ▸ hnew) ha.namesUnique
  | linked =>
    constructor
    · rw [InStep, relinked, Table.entries_map, List.map_map]
      exact ha.inStep
    · rw [Table.NamesUnique, relinked, List.map_map]
      exact ha.namesUnique

theorem Step.size_le (h : Step a a') : a.size ≤ a'.size := by
  cases h with
  | refused => exact Nat.le_refl _
  | inserted hnew => simp [extend, Table.size]
  | linked => simp [relinked, Table.size]

theorem sound_run (ops : List Operation) (ha : a.Sound) : (run ops a).Sound := by
  induction ops generalizing a with
  | nil => exact ha
  | cons op ops ih => exact ih ((step_step op a).sound ha)

theorem size_le_run (ops : List Operation) (a : Arena) : a.size ≤ (run ops a).size := by
  induction ops generalizing a with
  | nil => exact Nat.le_refl _
  | cons op ops ih => exact (step_step op a).size_le.trans (ih (step op a))

theorem sound_empty : Sound {} := ⟨rfl, List.nodup_nil⟩

def given : Operation → Arena → List (Handle × Declaration)
  | .insert d, a => ((perform (insert d) a).1.toOption.map fun h => (h, d)).toList
  | .link, _ => []

/-- The handles that the inserts of a run return. -/
def givenAlong : List Operation → Arena → List (Handle × Declaration)
  | [], _ => []
  | op :: ops, a => given op a ++ givenAlong ops (step op a)

theorem InStep.insert_refines (ha : a.InStep) (d : Declaration) :
    (perform (insert d) a).1 = (a.toTable.insert d).map Prod.fst ∧
      (perform (insert d) a).2.toTable = ((a.toTable.insert d).map Prod.snd).toOption.getD a.toTable := by
  obtain ⟨hold, hinsert⟩ | ⟨hnew, hinsert⟩ := a.perform_insert d
  · rw [ha.lookup?_table] at hold
    rw [hinsert, Table.insert, if_pos (Option.isSome_iff_ne_none.2 hold)]
    exact ⟨rfl, rfl⟩
  · rw [ha.lookup?_table] at hnew
    rw [hinsert, Table.insert, hnew]
    exact ⟨rfl, rfl⟩

theorem InStep.step_refines (ha : a.InStep) (hsize : a.size ≤ UInt32.size) (op : Operation)
    (log : List (Handle × Declaration)) :
    History.step op ⟨a.toTable, log⟩ = ⟨(step op a).toTable, log ++ given op a⟩ := by
  cases op with
  | insert d =>
    obtain ⟨hresult, hstate⟩ := ha.insert_refines d
    rw [step, given, hresult, hstate]
    cases hinsert : a.toTable.insert d with
    | error e => simp [History.step, hinsert, Except.map, Except.toOption]
    | ok found => simp [History.step, hinsert, Except.map, Except.toOption]
  | link =>
    rw [step, given, ha.link_refines hsize]
    cases hlink : a.toTable.link with
    | error e => simp [History.step, hlink, Except.toOption]
    | ok t => simp [History.step, hlink, Except.toOption]

/-- Along a run an arena does what its table does, and gives out the same handles. -/
theorem Sound.run_refines (ha : a.Sound) (ops : List Operation) (hsize : (run ops a).size ≤ UInt32.size)
    (log : List (Handle × Declaration)) :
    History.run ops ⟨a.toTable, log⟩ = ⟨(run ops a).toTable, log ++ givenAlong ops a⟩ := by
  induction ops generalizing a log with
  | nil => simp [History.run, run, givenAlong]
  | cons op ops ih =>
    have hfirst := ha.inStep.step_refines ((size_le_run (op :: ops) a).trans hsize) op log
    have hrest := ih ((step_step op a).sound ha) hsize (log ++ given op a)
    rw [History.run, hfirst, hrest, run, givenAlong, List.append_assoc]

theorem Sound.insertAll_refines (ha : a.Sound) (ds : List Declaration) :
    (∃ a', a'.Sound ∧ perform (ds.forM fun d => discard (insert d)) a = (.ok (), a') ∧
      a.toTable.insertAll ds = .ok a'.toTable) ∨
    ∃ e a', perform (ds.forM fun d => discard (insert d)) a = (.error e, a') ∧
      a.toTable.insertAll ds = .error e := by
  induction ds generalizing a with
  | nil => exact .inl ⟨a, ha, rfl, rfl⟩
  | cons d ds ih =>
    have hfirst : ((d :: ds).forM fun d => (discard (insert d) : Action Unit)) =
        insert d >>= fun _ => ds.forM fun d => discard (insert d) := bind_map_left ..
    have htable : a.toTable.insertAll (d :: ds) =
        ((a.toTable.insert d).map Prod.snd >>= fun t => t.insertAll ds) := rfl
    rw [hfirst, htable]
    obtain ⟨hold, hinsert⟩ | ⟨hnew, hinsert⟩ := a.perform_insert d
    · rw [ha.inStep.lookup?_table] at hold
      rw [perform_bind_of_error hinsert, Table.insert, if_pos (Option.isSome_iff_ne_none.2 hold)]
      exact .inr ⟨_, a, rfl, rfl⟩
    · have hnext := ih ((Step.inserted hnew).sound ha)
      rw [ha.inStep.lookup?_table] at hnew
      rw [perform_bind_of_ok hinsert, Table.insert, hnew]
      exact hnext

theorem ofDeclarations_refines {ds : List Declaration} (hsize : ds.length ≤ UInt32.size) :
    (ofDeclarations ds).map toTable = Table.ofDeclarations ds := by
  have hload : ofDeclarations ds = (perform (load ds) {}).1.map fun _ => (perform (load ds) {}).2 := rfl
  have htable : Table.ofDeclarations ds = (({} : Table).insertAll ds >>= Table.link) := rfl
  rw [hload, htable]
  obtain ⟨a, ha, hinsert, hok⟩ | ⟨e, a, hinsert, herror⟩ := sound_empty.insertAll_refines ds
  · have hlength : a.size ≤ UInt32.size := by
      rw [Table.size, Table.insertAll_declarations hok]
      simpa using hsize
    have hlink : perform (load ds) {} = perform link a := perform_bind_of_ok hinsert
    rw [hlink, ha.inStep.link_refines hlength, hok]
    cases ht : a.toTable.link with
    | error e => exact ht.symm
    | ok t => exact ht.symm
  · have hstop : perform (load ds) {} = (.error e, a) := perform_bind_of_error hinsert
    rw [hstop, herror]
    rfl

theorem ofText_refines {text : String}
    (hsize : ∀ ds, Declaration.parseList? text = some ds → ds.length ≤ UInt32.size) :
    (ofText text).map toTable = Table.ofText text := by
  cases hread : Declaration.parseList? text with
  | none => simp only [ofText, Table.ofText, hread, Except.map]
  | some ds => simp only [ofText, Table.ofText, hread, ofDeclarations_refines (hsize ds hread)]

/-- Positions, handles, names and the index of an arena fit together, and also with what was inserted. -/
structure Indexed (a : Arena) (inserted : List (Handle × Declaration)) : Prop where
  get? (h : Handle) : (∃ d, a.get? h = some d) ↔ h.index.toNat < a.size
  lookup? (q : String) (h : Handle) : a.lookup? q = some h ↔ ∃ d, a.get? h = some d ∧ d.qualifiedName = q
  inStep : a.InStep
  namesUnique : a.NamesUnique
  /-- The arena holds what was inserted, in this order and with the same handles. -/
  kept : List.Forall₂ (fun given entry => given.1 = entry.1 ∧ given.2.Settles entry.2) inserted a.entries
  entries {i : Nat} {h : Handle} {d : Declaration} (hi : a.entries[i]? = some (h, d)) :
    h.index.toNat = i ∧ a.get? h = some d
  nextHandle {d : Declaration} {h : Handle} (hins : (perform (Arena.insert d) a).1 = .ok h) :
    h = a.nextHandle ∧ (perform (Arena.insert d) a).2.get? h = some d
  insert (d : Declaration) : (∃ e, (perform (Arena.insert d) a).1 = .error e) ↔
    ∃ c ∈ a.declarations, c.qualifiedName = d.qualifiedName
  insert_unchanged {d : Declaration} {e : TableError} (hfails : (perform (Arena.insert d) a).1 = .error e) :
    (perform (Arena.insert d) a).2 = a
  link_unchanged {e : TableError} (hfails : (perform link a).1 = .error e) : (perform link a).2 = a

theorem insert_fails_iff (ha : a.InStep) (d : Declaration) : (∃ e, (perform (insert d) a).1 = .error e) ↔
    ∃ c ∈ a.declarations, c.qualifiedName = d.qualifiedName := by
  have hpresent : (∃ c ∈ a.declarations, c.qualifiedName = d.qualifiedName) ↔ a.lookup? d.qualifiedName ≠ none := by
    rw [ha.lookup?_table, ne_eq, Table.lookup?_eq_none_iff, not_not, List.mem_map]
  rw [hpresent]
  obtain ⟨hold, hinsert⟩ | ⟨hnew, hinsert⟩ := a.perform_insert d
  · simp [hinsert, hold]
  · simp [hinsert, hnew]

theorem insert_unchanged {e : TableError} (h : (perform (insert d) a).1 = .error e) :
    (perform (insert d) a).2 = a := by
  obtain ⟨-, hinsert⟩ | ⟨-, hinsert⟩ := a.perform_insert d
  · rw [hinsert]
  · rw [hinsert] at h
    cases h

theorem link_unchanged {e : TableError} (h : (perform link a).1 = .error e) : (perform link a).2 = a := by
  obtain ⟨_, -, hlink⟩ | ⟨-, hlink⟩ := a.perform_link
  · rw [hlink]
  · rw [hlink] at h
    cases h

theorem insert_nextHandle (hsize : a.size < UInt32.size) {h : Handle} (hins : (perform (insert d) a).1 = .ok h) :
    h = a.nextHandle ∧ (perform (insert d) a).2.get? h = some d := by
  obtain ⟨-, hinsert⟩ | ⟨-, hinsert⟩ := a.perform_insert d
  · rw [hinsert] at hins
    cases hins
  · rw [hinsert] at hins ⊢
    cases hins
    refine ⟨rfl, ?_⟩
    rw [Table.nextHandle, Table.get?_handleAt_of_lt _ hsize, Table.size, extend, List.getElem?_concat_length]

/-- After every run of inserts and links, whether they succeed or not, the index, the handles and the declarations fit
together, as long as fewer declarations are held than there are handles. -/
theorem run_indexed (ops : List Operation) (hsize : (run ops {}).size < UInt32.size) :
    (run ops {}).Indexed (givenAlong ops {}) := by
  have hsound := sound_run ops sound_empty
  -- what was inserted is kept, because the table's own run keeps it
  have hkept := (History.sound_run ops History.sound_empty).kept
  have hrun : History.run ops {} = ⟨(run ops {}).toTable, givenAlong ops {}⟩ :=
    sound_empty.run_refines ops hsize.le []
  rw [hrun] at hkept
  exact {
    get? h := by
      simp only [Table.get?, Table.size, List.getElem?_eq_some_iff]
      constructor
      · intro hget
        obtain ⟨d, hlt, -⟩ := hget
        exact hlt
      · intro hlt
        exact ⟨_, hlt, rfl⟩
    lookup? q h := by
      rw [hsound.inStep.lookup?_table]
      exact Table.lookup?_eq_some_iff hsound.namesUnique hsize.le
    inStep := hsound.inStep
    namesUnique := hsound.namesUnique
    kept := hkept
    entries := fun {i h d} hi => by
      rw [Table.entries_getElem?, Option.map_eq_some_iff] at hi
      obtain ⟨c, hc, hpair⟩ := hi
      obtain ⟨rfl, rfl⟩ := Prod.mk.inj hpair
      have hlt : i < UInt32.size := lt_trans (List.getElem?_eq_some_iff.1 hc).1 hsize
      exact ⟨by simpa [handleAt] using Nat.mod_eq_of_lt hlt, (Table.get?_handleAt_of_lt _ hlt).trans hc⟩
    nextHandle := insert_nextHandle hsize
    insert := insert_fails_iff hsound.inStep
    insert_unchanged := insert_unchanged
    link_unchanged := link_unchanged }

open Table (graphs view)

/-- Graphs are linked; then an interface comes whose name is the qualified name of a node, and a view that could mean
either node. The interface is not inserted, and the last link fails. -/
def graphRun : List Operation :=
  graphs.map .insert ++ [.link, .insert { kind := .interfaceKind, name := "a.Node" }, .insert view, .link]

theorem graphRun_indexed : (run graphRun {}).size = 4 ∧ (run graphRun {}).Indexed (givenAlong graphRun {}) ∧
    (run graphRun {}).byName = [("a.Node", ⟨0⟩), ("b.Node", ⟨1⟩), ("c.Graph", ⟨2⟩), ("View", ⟨3⟩)] ∧
    ∃ d, (run graphRun {}).get? ⟨1⟩ = some d ∧ d.qualifiedName = "b.Node" := by
  have hsize : (run graphRun {}).size = 4 := by decide +kernel
  have hindexed := run_indexed graphRun (by rw [hsize]; decide)
  exact ⟨hsize, hindexed, by decide +kernel, (hindexed.lookup? "b.Node" ⟨1⟩).1 (by decide +kernel)⟩

def Built (a : Arena) : Prop := ∃ ops, run ops {} = a

theorem Built.sound (h : a.Built) : a.Sound := by
  obtain ⟨ops, rfl⟩ := h
  exact sound_run ops sound_empty

end Arena

end Stencil
