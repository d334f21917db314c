import Stencil.Proofs.References
import Stencil.Proofs.Tables

/-! What linking does to a table: which references it refuses, and what it makes of the others. -/
namespace Stencil

inductive Resolution
  | declared (position : Nat) (d : Declaration)
  | builtIn
  | ambiguous (candidates : List Declaration)

namespace Table

variable (t : Table)

def Qualifies (n : String) : Prop := ∃ d ∈ t.declarations, d.qualifiedName = n

/-- A name stands for the declaration with this qualified name; or else for the only one with this simple
name; it is built in if there is none, and ambiguous if there are several. -/
inductive Resolves (n : String) : Resolution → Prop
  | qualified {i : Nat} {d : Declaration} (hget : t.declarations[i]? = some d) (hname : d.qualifiedName = n) :
      Resolves n (.declared i d)
  | simple {i : Nat} {d : Declaration} (hnone : ¬t.Qualifies n) (hget : t.declarations[i]? = some d)
      (hname : d.name = n) (honly : ∀ j e, t.declarations[j]? = some e → e.name = n → j = i) :
      Resolves n (.declared i d)
  | builtIn (hnone : ¬t.Qualifies n) (hsimple : ∀ d ∈ t.declarations, d.name ≠ n) : Resolves n .builtIn
  | ambiguous {i j : Nat} {d e : Declaration} (hnone : ¬t.Qualifies n) (hij : i ≠ j)
      (hi : t.declarations[i]? = some d) (hd : d.name = n) (hj : t.declarations[j]? = some e)
      (he : e.name = n) : Resolves n (.ambiguous (t.declarations.filter (·.name = n)))

def AmbiguousRef (r : Ref) : Prop := r.handle = none ∧ ∃ candidates, t.Resolves r.name (.ambiguous candidates)

def Refuses (r : Ref) (e : TableError) : Prop :=
  r.handle = none ∧ ∃ candidates, t.Resolves r.name (.ambiguous candidates) ∧
    e = .ambiguous r.name (candidates.map Declaration.qualifiedName)

inductive LinksTo : Ref → Ref → Prop
  | linked {r : Ref} {h : Handle} (hr : r.handle = some h) : LinksTo r r
  | declared {r : Ref} {i : Nat} {d : Declaration} (hr : r.handle = none)
      (hres : t.Resolves r.name (.declared i d)) : LinksTo r ⟨d.name, some (handleAt i)⟩
  | builtIn {r : Ref} (hr : r.handle = none) (hres : t.Resolves r.name .builtIn) : LinksTo r r

/-- The references of all declarations, in the order in which they are linked. -/
def walkRefs : List Ref := t.declarations.flatMap Declaration.walkRefs

variable {t}

theorem entries_find? (n : String) : t.entries.find? (·.2.qualifiedName == n) =
    (t.declarations.zipIdx.find? (·.1.qualifiedName == n)).map fun (d, i) => (handleAt i, d) := by
  rw [entries, List.find?_map]
  rfl

theorem named_eq (n : String) : t.named n =
    (t.declarations.zipIdx.filter (·.1.name == n)).map fun (d, i) => (handleAt i, d) := by
  rw [named, entries, List.filter_map]
  rfl

theorem position_unique (ht : t.NamesUnique) {i j : Nat} {d e : Declaration}
    (hi : t.declarations[i]? = some d) (hj : t.declarations[j]? = some e)
    (hname : d.qualifiedName = e.qualifiedName) : i = j := by
  have hlt : i < (t.declarations.map Declaration.qualifiedName).length := by
    simpa using (List.getElem?_eq_some_iff.1 hi).1
  exact (List.getElem?_inj hlt ht).1 (by simp [hi, hj, hname])

theorem qualifies_of_getElem? {n : String} {i : Nat} {d : Declaration} (hget : t.declarations[i]? = some d)
    (hname : d.qualifiedName = n) : t.Qualifies n := ⟨d, List.mem_of_getElem? hget, hname⟩

theorem Resolves.unique (ht : t.NamesUnique) {n : String} {a b : Resolution} (ha : t.Resolves n a)
    (hb : t.Resolves n b) : a = b := by
  cases ha with
  | qualified hi hd =>
    have hq := qualifies_of_getElem? hi hd
    cases hb with
    | qualified hj he =>
      obtain rfl := position_unique ht hi hj (hd.trans he.symm)
      rw [hi, Option.some.injEq] at hj
      rw [hj]
    | simple hnone => exact absurd hq hnone
    | builtIn hnone => exact absurd hq hnone
    | ambiguous hnone => exact absurd hq hnone
  | simple hnone hi hd honly =>
    cases hb with
    | qualified hj he => exact absurd (qualifies_of_getElem? hj he) hnone
    | simple _ hj he =>
      obtain rfl := honly _ _ hj he
      rw [hi, Option.some.injEq] at hj
      rw [hj]
    | builtIn _ hsimple => exact absurd hd (hsimple _ (List.mem_of_getElem? hi))
    | ambiguous _ hjk hj he hk hf => exact absurd ((honly _ _ hj he).trans (honly _ _ hk hf).symm) hjk
  | builtIn hnone hsimple =>
    cases hb with
    | qualified hj he => exact absurd (qualifies_of_getElem? hj he) hnone
    | simple _ hj he => exact absurd he (hsimple _ (List.mem_of_getElem? hj))
    | builtIn => rfl
    | ambiguous _ _ hj he => exact absurd he (hsimple _ (List.mem_of_getElem? hj))
  | ambiguous hnone hik hi hd hk hf =>
    cases hb with
    | qualified hj he => exact absurd (qualifies_of_getElem? hj he) hnone
    | simple _ _ _ honly => exact absurd ((honly _ _ hi hd).trans (honly _ _ hk hf).symm) hik
    | builtIn _ hsimple => exact absurd hd (hsimple _ (List.mem_of_getElem? hi))
    | ambiguous => rfl

theorem Resolves.getElem? {n : String} {i : Nat} {d : Declaration} (h : t.Resolves n (.declared i d)) :
    t.declarations[i]? = some d := by
  cases h with
  | qualified hget _ => exact hget
  | simple _ hget _ _ => exact hget

theorem mem_named {n : String} {entry : Declaration × Nat} :
    entry ∈ t.declarations.zipIdx.filter (·.1.name == n) ↔
      t.declarations[entry.2]? = some entry.1 ∧ entry.1.name = n := by
  rw [List.mem_filter, List.mem_zipIdx_iff_getElem?, beq_iff_eq]

theorem filter_name_eq (n : String) : t.declarations.filter (·.name = n) =
    (t.declarations.zipIdx.filter (·.1.name == n)).map Prod.fst := by
  conv_lhs => rw [← List.zipIdx_map_fst 0 t.declarations, List.filter_map]
  rfl

theorem positions_ne {p : Declaration × Nat → Bool} {x y : Declaration × Nat} {rest : List (Declaration × Nat)}
    (h : t.declarations.zipIdx.filter p = x :: y :: rest) : x.2 ≠ y.2 := by
  have hnodup : (t.declarations.zipIdx.map Prod.snd).Nodup := by
    rw [List.zipIdx_map_snd]
    exact List.nodup_range'
  have hsub : ((x :: y :: rest).map Prod.snd).Nodup := by
    rw [← h]
    exact hnodup.sublist (List.filter_sublist.map Prod.snd)
  intro hxy
  simp [hxy] at hsub

def Answers (t : Table) (n : String) : Except TableError (Option (Handle × Declaration)) → Prop
  | .ok (some (h, d)) => ∃ i, h = handleAt i ∧ t.Resolves n (.declared i d)
  | .ok none => t.Resolves n .builtIn
  | .error e => ∃ candidates, t.Resolves n (.ambiguous candidates) ∧
      e = .ambiguous n (candidates.map Declaration.qualifiedName)

theorem resolve_answers (t : Table) (n : String) : t.Answers n (t.resolve n) := by
  cases hf : t.declarations.zipIdx.find? (·.1.qualifiedName == n) with
  | some entry =>
    have hget := List.mem_zipIdx_iff_getElem?.1 (List.mem_of_find?_eq_some hf)
    have hname : entry.1.qualifiedName = n := by simpa using List.find?_some hf
    rw [resolve, entries_find?, hf]
    exact ⟨entry.2, rfl, .qualified hget hname⟩
  | none =>
    have hnone : ¬t.Qualifies n := by
      rintro ⟨d, hd, hname⟩
      obtain ⟨i, hi⟩ := List.getElem?_of_mem hd
      have hmiss := List.find?_eq_none.1 hf _ (List.mk_mem_zipIdx_iff_getElem?.2 hi)
      simp [hname] at hmiss
    rw [resolve, entries_find?, hf, named_eq]
    cases hn : t.declarations.zipIdx.filter (·.1.name == n) with
    | nil =>
      refine .builtIn hnone fun d hd hname => ?_
      obtain ⟨i, hi⟩ := List.getElem?_of_mem hd
      have hmem : (d, i) ∈ ([] : List (Declaration × Nat)) := hn ▸ mem_named.2 ⟨hi, hname⟩
      exact absurd hmem List.not_mem_nil
    | cons x rest =>
      obtain ⟨hx, hxn⟩ := mem_named.1 (hn ▸ List.mem_cons_self : x ∈ _)
      cases rest with
      | nil =>
        refine ⟨x.2, rfl, .simple hnone hx hxn fun j e hj he => ?_⟩
        have hmem : (e, j) ∈ [x] := hn ▸ mem_named.2 ⟨hj, he⟩
        exact congrArg Prod.snd (List.mem_singleton.1 hmem)
      | cons y rest =>
        obtain ⟨hy, hyn⟩ := mem_named.1 (hn ▸ List.mem_cons_of_mem x List.mem_cons_self : y ∈ _)
        refine ⟨_, .ambiguous hnone (positions_ne hn) hx hxn hy hyn, ?_⟩
        rw [filter_name_eq, hn]
        simp

theorem linkRef_ok {r s : Ref} (h : t.linkRef r = .ok s) : t.LinksTo r s := by
  cases hr : r.handle with
  | some handle =>
    simp only [linkRef, hr, Except.ok.injEq] at h
    exact h ▸ .linked hr
  | none =>
    simp only [linkRef, hr, bind_eq_ok] at h
    obtain ⟨found?, hfound, hs⟩ := h
    have hans := hfound ▸ t.resolve_answers r.name
    cases found? with
    | none =>
      obtain rfl := pure_eq_ok.1 hs
      exact .builtIn hr hans
    | some found =>
      obtain ⟨i, hi, hres⟩ := hans
      obtain rfl := pure_eq_ok.1 hs
      rw [hi]
      exact .declared hr hres

theorem linkRef_error {r : Ref} {e : TableError} (h : t.linkRef r = .error e) : t.Refuses r e := by
  cases hr : r.handle with
  | some handle => simp [linkRef, hr] at h
  | none =>
    refine ⟨hr, ?_⟩
    have hans := t.resolve_answers r.name
    cases hres : t.resolve r.name with
    | error e' =>
      rw [hres] at hans
      simp only [linkRef, hr, hres] at h
      cases h
      exact hans
    | ok found? =>
      simp only [linkRef, hr, hres] at h
      cases found? <;> cases h

theorem Refuses.ambiguousRef {r : Ref} {e : TableError} : t.Refuses r e → t.AmbiguousRef r
  | ⟨hnone, candidates, hcs, _⟩ => ⟨hnone, candidates, hcs⟩

theorem LinksTo.not_ambiguousRef (ht : t.NamesUnique) {r s : Ref} (hs : t.LinksTo r s) :
    ¬t.AmbiguousRef r := by
  rintro ⟨hnone, candidates, hcs⟩
  cases hs with
  | linked hr => exact absurd (hr.symm.trans hnone) (by simp)
  | declared _ hres => exact absurd (hres.unique ht hcs) (by simp)
  | builtIn _ hres => exact absurd (hres.unique ht hcs) (by simp)

theorem LinksTo.unique (ht : t.NamesUnique) {r s s' : Ref} (hs : t.LinksTo r s) (hs' : t.LinksTo r s') :
    s = s' := by
  cases hs with
  | linked hr =>
    cases hs' with
    | linked => rfl
    | declared hr' => exact absurd (hr.symm.trans hr') (by simp)
    | builtIn => rfl
  | declared hr hres =>
    cases hs' with
    | linked hr' => exact absurd (hr'.symm.trans hr) (by simp)
    | declared _ hres' =>
      obtain ⟨rfl, rfl⟩ := Resolution.declared.inj (hres.unique ht hres')
      rfl
    | builtIn _ hres' => exact absurd (hres.unique ht hres') (by simp)
  | builtIn hr hres =>
    cases hs' with
    | linked => rfl
    | declared _ hres' => exact absurd (hres.unique ht hres') (by simp)
    | builtIn => rfl

theorem linkRef_eq_ok (ht : t.NamesUnique) {r s : Ref} : t.linkRef r = .ok s ↔ t.LinksTo r s := by
  refine ⟨linkRef_ok, fun hs => ?_⟩
  cases hr : t.linkRef r with
  | ok s' => rw [(linkRef_ok hr).unique ht hs]
  | error e => exact absurd (linkRef_error hr).ambiguousRef (hs.not_ambiguousRef ht)

theorem linkRef_errorOf?_eq_none (ht : t.NamesUnique) {r : Ref} :
    errorOf? (t.linkRef r) = none ↔ ¬t.AmbiguousRef r := by
  cases hr : t.linkRef r with
  | ok s => simpa [errorOf?] using (linkRef_ok hr).not_ambiguousRef ht
  | error e => simpa [errorOf?] using (linkRef_error hr).ambiguousRef

theorem link_outcome (t : Table) : t.link =
    outcome (t.walkRefs.findSome? fun r => errorOf? (t.linkRef r))
      ⟨t.declarations.map (·.mapRefs fun r => (t.linkRef r).toOption.getD r)⟩ := by
  have hlink : t.linkRef = fun r => outcome (errorOf? (t.linkRef r)) ((t.linkRef r).toOption.getD r) := by
    funext r
    exact (outcome_errorOf? _ r).symm
  rw [link]
  conv_lhs => rw [hlink]
  simp only [Declaration.traverse_outcome, mapM_outcome, outcome_pure, outcome_bind, Option.or_none, walkRefs,
    findSome?_flatMap]

theorem mapRefs_congr {f g : Ref → Ref} (h : ∀ r ∈ t.walkRefs, f r = g r) :
    t.declarations.map (·.mapRefs f) = t.declarations.map (·.mapRefs g) := by
  refine List.map_congr_left fun d hd => Declaration.mapRefs_congr fun r hr => h r ?_
  exact List.mem_flatMap.2 ⟨d, hd, hr⟩

theorem link_eq_ok (ht : t.NamesUnique) {t' : Table} : t.link = .ok t' ↔
    ∃ f : Ref → Ref, (∀ r ∈ t.walkRefs, t.LinksTo r (f r)) ∧
      t' = ⟨t.declarations.map (·.mapRefs f)⟩ := by
  rw [link_outcome, outcome_eq_ok, List.findSome?_eq_none_iff]
  constructor
  · rintro ⟨hnone, rfl⟩
    refine ⟨_, fun r hr => ?_, rfl⟩
    obtain ⟨s, hs⟩ := errorOf?_eq_none.1 (hnone r hr)
    rw [hs]
    exact linkRef_ok hs
  · rintro ⟨f, hf, rfl⟩
    have hlink (r : Ref) (hr : r ∈ t.walkRefs) : t.linkRef r = .ok (f r) := (linkRef_eq_ok ht).2 (hf r hr)
    refine ⟨fun r hr => errorOf?_eq_none.2 ⟨_, hlink r hr⟩, ?_⟩
    rw [mapRefs_congr fun r hr => ?_]
    rw [hlink r hr]
    rfl

def graphs : List Declaration := [
  { kind := .classKind none, package := "a", name := "Node" },
  { kind := .classKind none, package := "b", name := "Node" },
  { kind := .classKind (some (.named ⟨"String", none⟩)), package := "c", name := "Graph"
    fields := [⟨.pub, false, false, .vector (.named ⟨"a.Node", none⟩), "nodes", none⟩] }]

def view : Declaration where
  kind := .classKind (some (.named ⟨"Graph", none⟩))
  name := "View"
  delegates := [⟨"Visit", none, [⟨.named ⟨"Node", none⟩, "node"⟩]⟩]

end Table

end Stencil
