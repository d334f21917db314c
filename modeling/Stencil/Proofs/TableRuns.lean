import Stencil.Proofs.LoadedTables

/-! Tables under inserts and links in any order, some of which may fail. What a step can do is said once, by `Step`.
Main statement: along every run the names are unique, and the table holds the inserted declarations in their order. -/
namespace Stencil

def Ref.Settles (r s : Ref) : Prop := s = r ∨ r.handle = none ∧ s.handle.isSome = true

theorem Ref.Settles.trans {r s u : Ref} (hs : r.Settles s) (hu : s.Settles u) : r.Settles u := by
  cases hs with
  | inl hs => exact hs ▸ hu
  | inr hs =>
    cases hu with
    | inl hu => exact .inr (hu ▸ hs)
    | inr hu => simp [hu.1] at hs

theorem Ref.Settles.eq_of_handle {r s : Ref} (hs : r.Settles s) (hr : r.handle.isSome = true) : s = r := by
  cases hs with
  | inl hs => exact hs
  | inr hs => simp [hs.1] at hr

namespace Declaration

/-- Some references without a handle get one, and all else stays as it is. -/
def Settles (d e : Declaration) : Prop := ∃ f : Ref → Ref, (∀ r : Ref, r.Settles (f r)) ∧ e = d.mapRefs f

variable {d e c : Declaration}

theorem Settles.refl (d : Declaration) : d.Settles d := ⟨id, fun _ => .inl rfl, d.mapRefs_id.symm⟩

theorem Settles.trans (he : d.Settles e) (hc : e.Settles c) : d.Settles c := by
  obtain ⟨f, hf, rfl⟩ := he
  obtain ⟨g, hg, rfl⟩ := hc
  exact ⟨g ∘ f, fun r => (hf r).trans (hg (f r)), d.mapRefs_mapRefs f g⟩

theorem Settles.package (h : d.Settles e) : e.package = d.package := by
  obtain ⟨f, -, rfl⟩ := h
  rfl

theorem Settles.qualifiedName (h : d.Settles e) : e.qualifiedName = d.qualifiedName := by
  obtain ⟨f, -, rfl⟩ := h
  rfl

theorem Settles.walkRefs_getElem? (h : d.Settles e) {k : Nat} {r : Ref} (hr : d.walkRefs[k]? = some r) :
    ∃ s, e.walkRefs[k]? = some s ∧ r.Settles s := by
  obtain ⟨f, hf, rfl⟩ := h
  exact ⟨f r, by simp [walkRefs_mapRefs, hr], hf r⟩

theorem Settles.eq_of_linked (h : d.Settles e) (hd : ∀ r ∈ d.walkRefs, r.handle.isSome = true) : e = d := by
  obtain ⟨f, hf, rfl⟩ := h
  have hkept : ∀ r ∈ d.walkRefs, f r = id r := fun r hr => (hf r).eq_of_handle (hd r hr)
  rw [mapRefs_congr hkept, d.mapRefs_id]

end Declaration

namespace Table

variable {t : Table}

theorem linkRef_settles (t : Table) (r : Ref) : r.Settles ((t.linkRef r).toOption.getD r) := by
  cases hr : t.linkRef r with
  | error e => exact .inl rfl
  | ok s =>
    cases linkRef_ok hr with
    | linked => exact .inl rfl
    | declared hnone => exact .inr ⟨hnone, rfl⟩
    | builtIn => exact .inl rfl

theorem exists_of_link {t' : Table} (h : t.link = .ok t') : ∃ f : Ref → Ref, (∀ r : Ref, r.Settles (f r)) ∧
    t' = ⟨t.declarations.map (·.mapRefs f)⟩ := by
  rw [link_outcome, outcome_eq_ok] at h
  exact ⟨_, t.linkRef_settles, h.2.symm⟩

theorem lookup?_eq_some_iff (ht : t.NamesUnique) (hsize : t.size ≤ UInt32.size) {q : String} {h : Handle} :
    t.lookup? q = some h ↔ ∃ d, t.get? h = some d ∧ d.qualifiedName = q := by
  rw [lookup?, Option.map_eq_some_iff]
  constructor
  · rintro ⟨i, hi, rfl⟩
    obtain ⟨hlt, hname, -⟩ := List.findIdx?_eq_some_iff_getElem.1 hi
    refine ⟨t.declarations[i], ?_, by simpa using hname⟩
    rw [t.get?_handleAt_of_lt (lt_of_lt_of_le hlt hsize), List.getElem?_eq_getElem hlt]
  · rintro ⟨d, hget, hname⟩
    cases hfind : t.declarations.findIdx? (·.qualifiedName == q) with
    | none =>
      have hmiss := List.findIdx?_eq_none_iff.1 hfind d (List.mem_of_getElem? hget)
      simp [hname] at hmiss
    | some i =>
      obtain ⟨hlt, hfound, -⟩ := List.findIdx?_eq_some_iff_getElem.1 hfind
      have hsame : t.declarations[i].qualifiedName = d.qualifiedName := by simpa [hname] using hfound
      obtain rfl := position_unique ht (List.getElem?_eq_getElem hlt) hget hsame
      exact ⟨_, rfl, by simp [handleAt]⟩

inductive Operation
  | insert (d : Declaration)
  | link

/-- A table with the declarations that were inserted, as they were then, and the handles that were given out. -/
structure History where
  table : Table := {}
  inserted : List (Handle × Declaration) := []

namespace History

def step : Operation → History → History
  | .insert d, s =>
    match s.table.insert d with
    | .ok (h, t) => ⟨t, s.inserted ++ [(h, d)]⟩
    | .error _ => s
  | .link, s =>
    match s.table.link with
    | .ok t => { s with table := t }
    | .error _ => s

def run : List Operation → History → History
  | [], s => s
  | op :: ops, s => run ops (step op s)

theorem run_append (ops ops' : List Operation) (s : History) : run (ops ++ ops') s = run ops' (run ops s) := by
  induction ops generalizing s with
  | nil => rfl
  | cons op ops ih => exact ih (step op s)

/-- Everything that an operation can do. -/
inductive Step (s : History) : History → Prop
  | refused : Step s s
  | inserted {d : Declaration} (hnew : s.table.lookup? d.qualifiedName = none) :
      Step s ⟨⟨s.table.declarations ++ [d]⟩, s.inserted ++ [(s.table.nextHandle, d)]⟩
  | linked {f : Ref → Ref} (hf : ∀ r : Ref, r.Settles (f r)) :
      Step s { s with table := ⟨s.table.declarations.map (·.mapRefs f)⟩ }

theorem step_step (op : Operation) (s : History) : Step s (step op s) := by
  cases op with
  | insert d =>
    cases hins : s.table.insert d with
    | error e => simpa only [step, hins] using .refused
    | ok found =>
      obtain ⟨hnew, hhandle, htable⟩ := insert_eq_ok.1 hins
      simpa only [step, hins, ← hhandle, ← htable] using .inserted hnew
  | link =>
    cases hlink : s.table.link with
    | error e => simpa only [step, hlink] using .refused
    | ok t =>
      obtain ⟨f, hf, rfl⟩ := exists_of_link hlink
      simpa only [step, hlink] using .linked hf

structure Sound (s : History) : Prop where
  namesUnique : s.table.NamesUnique
  kept : List.Forall₂ (fun given entry => given.1 = entry.1 ∧ given.2.Settles entry.2)
    s.inserted s.table.entries

variable {s s' : History}

theorem Step.sound (h : Step s s') (hs : s.Sound) : s'.Sound := by
  cases h with
  | refused => exact hs
  | inserted hnew =>
    refine ⟨append_namesUnique hnew hs.namesUnique, ?_⟩
    rw [entries_append]
    exact List.rel_append hs.kept (.cons ⟨rfl, .refl _⟩ .nil)
  | linked hf =>
    constructor
    · rw [NamesUnique, List.map_map]
      exact hs.namesUnique
    · rw [entries_map, List.forall₂_map_right_iff]
      exact hs.kept.imp fun given entry h => ⟨h.1, h.2.trans ⟨_, hf, rfl⟩⟩

theorem sound_run (ops : List Operation) (hs : s.Sound) : (run ops s).Sound := by
  induction ops generalizing s with
  | nil => exact hs
  | cons op ops ih => exact ih ((step_step op s).sound hs)

theorem sound_empty : Sound {} := ⟨List.nodup_nil, .nil⟩

end History

end Table

end Stencil
