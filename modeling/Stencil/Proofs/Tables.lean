import Stencil.Table.Basic
import Stencil.Proofs.Outcomes
import Mathlib.Data.List.Nodup

/-! Tables that grow by inserting declarations. -/
namespace Stencil.Table

def NamesUnique (t : Table) : Prop := (t.declarations.map Declaration.qualifiedName).Nodup

theorem lookup?_eq_none_iff {t : Table} {q : String} :
    t.lookup? q = none ↔ q ∉ t.declarations.map Declaration.qualifiedName := by
  simp [lookup?, List.findIdx?_eq_none_iff]

theorem insert_eq_ok {t t' : Table} {d : Declaration} {h : Handle} : t.insert d = .ok (h, t') ↔
    t.lookup? d.qualifiedName = none ∧ t.nextHandle = h ∧ ⟨t.declarations ++ [d]⟩ = t' := by
  cases hl : t.lookup? d.qualifiedName with
  | some _ => simp [insert, hl]
  | none => simp [insert, hl]

theorem insertAll_nil {t t' : Table} : t.insertAll [] = .ok t' ↔ t = t' := pure_eq_ok

theorem insertAll_cons {t t' : Table} {d : Declaration} {ds : List Declaration} :
    t.insertAll (d :: ds) = .ok t' ↔
      t.lookup? d.qualifiedName = none ∧ (Table.mk (t.declarations ++ [d])).insertAll ds = .ok t' := by
  rw [insertAll, List.foldlM_cons, bind_eq_ok]
  constructor
  · rintro ⟨mid, hmid, hrest⟩
    obtain ⟨⟨_, _⟩, hins, rfl⟩ := map_eq_ok.1 hmid
    obtain ⟨hnew, -, rfl⟩ := insert_eq_ok.1 hins
    exact ⟨hnew, hrest⟩
  · rintro ⟨hnew, hrest⟩
    exact ⟨_, map_eq_ok.2 ⟨_, insert_eq_ok.2 ⟨hnew, rfl, rfl⟩, rfl⟩, hrest⟩

theorem append_namesUnique {t : Table} {d : Declaration} (hnew : t.lookup? d.qualifiedName = none)
    (ht : t.NamesUnique) : (Table.mk (t.declarations ++ [d])).NamesUnique := by
  rw [lookup?_eq_none_iff] at hnew
  rw [NamesUnique, List.map_append, List.map_singleton, List.nodup_append]
  refine ⟨ht, List.nodup_singleton _, fun q hq r hr hqr => ?_⟩
  rw [hqr, List.mem_singleton.1 hr] at hq
  exact hnew hq

theorem insertAll_namesUnique {t t' : Table} {ds : List Declaration} (h : t.insertAll ds = .ok t')
    (ht : t.NamesUnique) : t'.NamesUnique := by
  induction ds generalizing t with
  | nil => exact insertAll_nil.1 h ▸ ht
  | cons d ds ih =>
    obtain ⟨hnew, hrest⟩ := insertAll_cons.1 h
    exact ih hrest (append_namesUnique hnew ht)

theorem insertAll_declarations {t t' : Table} {ds : List Declaration} (h : t.insertAll ds = .ok t') :
    t'.declarations = t.declarations ++ ds := by
  induction ds generalizing t with
  | nil => rw [← insertAll_nil.1 h, List.append_nil]
  | cons d ds ih =>
    obtain ⟨-, hrest⟩ := insertAll_cons.1 h
    rw [ih hrest, List.append_assoc, List.singleton_append]

theorem insertAll_of_namesUnique {t : Table} {ds : List Declaration}
    (h : (Table.mk (t.declarations ++ ds)).NamesUnique) : t.insertAll ds = .ok ⟨t.declarations ++ ds⟩ := by
  induction ds generalizing t with
  | nil => exact insertAll_nil.2 (by simp)
  | cons d ds ih =>
    have hnew : t.lookup? d.qualifiedName = none := by
      rw [lookup?_eq_none_iff]
      intro hmem
      rw [NamesUnique, List.map_append, List.map_cons, List.nodup_append] at h
      exact h.2.2 _ hmem _ List.mem_cons_self rfl
    have hsplit : t.declarations ++ d :: ds = (t.declarations ++ [d]) ++ ds := by simp
    rw [hsplit] at h ⊢
    exact insertAll_cons.2 ⟨hnew, ih h⟩

theorem get?_handleAt (t : Table) (i : Nat) : t.get? (handleAt i) = t.declarations[i % UInt32.size]? := by
  simp [get?, handleAt, UInt32.size]

theorem entries_append (t : Table) (d : Declaration) :
    (Table.mk (t.declarations ++ [d])).entries = t.entries ++ [(t.nextHandle, d)] := by
  simp [entries, List.zipIdx_append, nextHandle, size]

theorem entries_map (t : Table) (g : Declaration → Declaration) :
    (Table.mk (t.declarations.map g)).entries = t.entries.map (Prod.map id g) := by
  simp [entries, List.zipIdx_map, Function.comp_def]

theorem entries_getElem? (t : Table) (i : Nat) : t.entries[i]? = t.declarations[i]?.map (Prod.mk (handleAt i)) := by
  simp [entries, Function.comp_def]

theorem get?_handleAt_of_lt (t : Table) {i : Nat} (hi : i < UInt32.size) :
    t.get? (handleAt i) = t.declarations[i]? := by
  rw [get?_handleAt, Nat.mod_eq_of_lt hi]

end Stencil.Table
