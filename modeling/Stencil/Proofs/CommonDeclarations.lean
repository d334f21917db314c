import Stencil.Emission.Basic
import Stencil.Proofs.HandleErasure
import Stencil.Proofs.LoadedTables

/-! Two tables that are loaded from lists with declarations in common. What a name refers to depends on the
declarations that bear this name, whatever their positions. Main statements: the order of the declarations has no
influence on the files, and neither has a further declaration that nobody refers to. -/
namespace Stencil

namespace Table

/-- The tables hold the same declarations that bear this name, simple or qualified. -/
def AgreeOn (u v : Table) (n : String) : Prop :=
  ∀ d : Declaration, d.name = n ∨ d.qualifiedName = n → (d ∈ u.declarations ↔ d ∈ v.declarations)

section Agreement

variable {u v : Table} {n : String}

theorem AgreeOn.symm (h : u.AgreeOn v n) : v.AgreeOn u n := fun d hd => (h d hd).symm

theorem AgreeOn.qualifies_iff (h : u.AgreeOn v n) : u.Qualifies n ↔ v.Qualifies n := by
  constructor
  · rintro ⟨d, hd, hname⟩
    exact ⟨d, (h d (.inr hname)).1 hd, hname⟩
  · rintro ⟨d, hd, hname⟩
    exact ⟨d, (h d (.inr hname)).2 hd, hname⟩

theorem AgreeOn.exists_position (h : u.AgreeOn v n) {i : Nat} {d : Declaration}
    (hget : u.declarations[i]? = some d) (hname : d.name = n ∨ d.qualifiedName = n) :
    ∃ j : Nat, v.declarations[j]? = some d :=
  List.getElem?_of_mem ((h d hname).1 (List.mem_of_getElem? hget))

theorem Resolves.declared_of_agreeOn (hv : v.NamesUnique) (h : u.AgreeOn v n) {i : Nat} {d : Declaration}
    (hres : u.Resolves n (.declared i d)) : ∃ j, v.Resolves n (.declared j d) := by
  cases hres with
  | qualified hget hname =>
    obtain ⟨j, hj⟩ := h.exists_position hget (.inr hname)
    exact ⟨j, .qualified hj hname⟩
  | simple hnone hget hname honly =>
    obtain ⟨j, hj⟩ := h.exists_position hget (.inl hname)
    refine ⟨j, .simple (h.qualifies_iff.not.1 hnone) hj hname fun k e hk he => ?_⟩
    -- whoever else bears the name in one table does so in the other, where there is only one
    obtain ⟨l, hl⟩ := h.symm.exists_position hk (.inl he)
    obtain rfl := honly l e hl he
    obtain rfl : d = e := Option.some.inj (hget.symm.trans hl)
    exact position_unique hv hk hj rfl

theorem Resolves.builtIn_of_agreeOn (h : u.AgreeOn v n) (hres : u.Resolves n .builtIn) :
    v.Resolves n .builtIn := by
  cases hres with
  | builtIn hnone hsimple =>
    exact .builtIn (h.qualifies_iff.not.1 hnone) fun d hd hname => hsimple d ((h d (.inl hname)).2 hd) hname

theorem AmbiguousRef.of_agreeOn (hu : u.NamesUnique) {r : Ref} (h : u.AgreeOn v r.name)
    (hamb : u.AmbiguousRef r) : v.AmbiguousRef r := by
  obtain ⟨hr, candidates, hres⟩ := hamb
  cases hres with
  | @ambiguous i j d e hnone hij hi hd hj he =>
    obtain ⟨k, hk⟩ := h.exists_position hi (.inl hd)
    obtain ⟨l, hl⟩ := h.exists_position hj (.inl he)
    refine ⟨hr, _, .ambiguous (h.qualifies_iff.not.1 hnone) ?_ hk hd hl he⟩
    rintro rfl
    obtain rfl : d = e := Option.some.inj (hk.symm.trans hl)
    exact hij (position_unique hu hi hj rfl)

/-- What a reference becomes in the one table and in the other: a reference to the same declaration, or in
both the reference that it was. -/
inductive LinkedAlike (u v : Table) : Ref → Ref → Prop
  | declared {i j : Nat} {D : Declaration} (hi : u.declarations[i]? = some D) (hj : v.declarations[j]? = some D) :
      LinkedAlike u v ⟨D.name, some (handleAt i)⟩ ⟨D.name, some (handleAt j)⟩
  | builtIn {r : Ref} (hr : r.handle = none) : LinkedAlike u v r r

theorem LinksTo.linkedAlike (hv : v.NamesUnique) {r s s' : Ref} (hr : r.handle = none) (h : u.AgreeOn v r.name)
    (hs : u.LinksTo r s) (hs' : v.LinksTo r s') : LinkedAlike u v s s' := by
  cases hs with
  | linked hlinked => exact absurd (hlinked.symm.trans hr) (by simp)
  | declared _ hres =>
    obtain ⟨j, hj⟩ := hres.declared_of_agreeOn hv h
    rw [hs'.unique hv (.declared hr hj)]
    exact .declared hres.getElem? hj.getElem?
  | builtIn _ hres =>
    rw [hs'.unique hv (.builtIn hr (hres.builtIn_of_agreeOn h))]
    exact .builtIn hr

theorem LinkedAlike.unplaced_eq {r s : Ref} (h : LinkedAlike u v r s) : r.unplaced = s.unplaced := by
  cases h <;> rfl

end Agreement

def mapRefs (t : Table) (f : Ref → Ref) : Table := ⟨t.declarations.map (·.mapRefs f)⟩

section Written

variable {u v : Table} {f g : Ref → Ref}

theorem get?_mapRefs (hsize : u.size ≤ UInt32.size) {i : Nat} {D : Declaration}
    (hget : u.declarations[i]? = some D) : (u.mapRefs f).get? (handleAt i) = some (D.mapRefs f) := by
  have hlinked : (u.mapRefs f).Linked ⟨D.name, some (handleAt i)⟩ i (D.mapRefs f) :=
    ⟨by simp [mapRefs, hget], rfl⟩
  exact hlinked.get? (by simpa [mapRefs, size] using hsize)

theorem imports_mapRefs {t : Table} {d : Declaration} (h : ∀ r ∈ d.walkRefs, Lint.dangling? t (f r) = none) :
    (d.mapRefs f).imports t =
      .ok (.ofPackages (d.siteRefs.filterMap fun entry => Declaration.package? t (f entry.2))) := by
  refine Declaration.imports_eq_ok.2 ⟨fun s hs => ?_, ?_⟩
  · rw [Declaration.walkRefs_mapRefs] at hs
    obtain ⟨r, hr, rfl⟩ := List.mem_map.1 hs
    exact h r hr
  · rw [Declaration.siteRefs_mapRefs, List.map_map, List.filterMap_map]
    rfl

theorem LinkedAlike.dangling? (hsize : u.size ≤ UInt32.size) (hsize' : v.size ≤ UInt32.size) {r s : Ref}
    (h : LinkedAlike u v r s) :
    Lint.dangling? (u.mapRefs f) r = none ∧ Lint.dangling? (v.mapRefs g) s = none := by
  cases h with
  | declared hi hj => simp [Lint.dangling?, Option.filter_some, get?_mapRefs hsize hi, get?_mapRefs hsize' hj]
  | builtIn hr => simp [Lint.dangling?, hr]

theorem LinkedAlike.package?_eq (hsize : u.size ≤ UInt32.size) (hsize' : v.size ≤ UInt32.size) {r s : Ref}
    (h : LinkedAlike u v r s) :
    Declaration.package? (u.mapRefs f) r = Declaration.package? (v.mapRefs g) s := by
  cases h with
  | declared hi hj =>
    simp only [Declaration.package?, Option.bind_some, get?_mapRefs hsize hi, get?_mapRefs hsize' hj]
    rfl
  | builtIn hr => simp [Declaration.package?, hr]

theorem imports_eq_of_linkedAlike (hsize : u.size ≤ UInt32.size) (hsize' : v.size ≤ UInt32.size)
    {d : Declaration} (h : ∀ r ∈ d.walkRefs, LinkedAlike u v (f r) (g r)) :
    (d.mapRefs f).imports (u.mapRefs f) = (d.mapRefs g).imports (v.mapRefs g) := by
  rw [imports_mapRefs fun r hr => ((h r hr).dangling? (g := g) hsize hsize').1,
    imports_mapRefs fun r hr => ((h r hr).dangling? (f := f) hsize hsize').2]
  congr 2
  refine List.filterMap_congr fun entry hentry => ?_
  exact (h entry.2 (Declaration.mem_walkRefs.2 ⟨entry.1, hentry⟩)).package?_eq hsize hsize'

theorem render_eq_of_linkedAlike (hsize : u.size ≤ UInt32.size) (hsize' : v.size ≤ UInt32.size)
    {δ : Dialect} (hδ : δ.Overlooks Ref.unplaced) {d : Declaration}
    (h : ∀ r ∈ d.walkRefs, LinkedAlike u v (f r) (g r)) :
    (d.mapRefs f).render δ (u.mapRefs f) = (d.mapRefs g).render δ (v.mapRefs g) := by
  -- without the handles, the two linked declarations are the same
  have hsame : (d.mapRefs f).mapRefs Ref.unplaced = (d.mapRefs g).mapRefs Ref.unplaced := by
    rw [Declaration.mapRefs_mapRefs, Declaration.mapRefs_mapRefs]
    exact Declaration.mapRefs_congr fun r hr => (h r hr).unplaced_eq
  have hfile (imports : Imports) : (d.mapRefs f).writeFile δ imports = (d.mapRefs g).writeFile δ imports := by
    rw [← Declaration.writeFile_mapRefs _ hδ, hsame, Declaration.writeFile_mapRefs _ hδ]
  simp only [Declaration.render, imports_eq_of_linkedAlike hsize hsize' h, hfile]

end Written

theorem eq_of_qualifiedName_eq {t : Table} (ht : t.NamesUnique) {d e : Declaration} (hd : d ∈ t.declarations)
    (he : e ∈ t.declarations) (h : d.qualifiedName = e.qualifiedName) : d = e :=
  List.inj_on_of_nodup_map ht hd he h

section Loaded

variable {ds ds' : List Declaration} {t t' : Table}

theorem qualifies_of_ofDeclarations (hload : ofDeclarations ds = .ok t) (q : String) :
    t.Qualifies q ↔ ∃ d ∈ ds, d.qualifiedName = q := by
  obtain ⟨-, f, -, rfl⟩ := ofDeclarations_eq_ok_iff.1 hload
  constructor
  · rintro ⟨_, hd, hq⟩
    obtain ⟨e, he, rfl⟩ := List.mem_map.1 hd
    exact ⟨e, he, hq⟩
  · rintro ⟨e, he, hq⟩
    exact ⟨e.mapRefs f, List.mem_map_of_mem he, hq⟩

theorem files_eq_of_agreeOn (hload : ofDeclarations ds = .ok t) (hload' : ofDeclarations ds' = .ok t')
    (hsub : ∀ d ∈ ds, d ∈ ds') (hbare : ∀ d ∈ ds, d.Unlinked)
    (hagree : ∀ d ∈ ds, ∀ r ∈ d.walkRefs, (Table.mk ds).AgreeOn ⟨ds'⟩ r.name) {d d' : Declaration}
    (hd : d ∈ t.declarations) (hd' : d' ∈ t'.declarations) (hname : d.qualifiedName = d'.qualifiedName) :
    (∀ δ root, d.outputPath δ root = d'.outputPath δ root) ∧
      (ds.length ≤ UInt32.size → ds'.length ≤ UInt32.size → ∀ target : Target,
        d.render target.dialect t = d'.render target.dialect t') := by
  obtain ⟨-, f, hf, rfl⟩ := ofDeclarations_eq_ok_iff.1 hload
  obtain ⟨hunique', g, hg, rfl⟩ := ofDeclarations_eq_ok_iff.1 hload'
  obtain ⟨e, he, rfl⟩ := List.mem_map.1 hd
  obtain ⟨e', he', rfl⟩ := List.mem_map.1 hd'
  obtain rfl : e = e' := eq_of_qualifiedName_eq hunique' (hsub e he) he' hname
  refine ⟨fun δ root => rfl, fun hsize hsize' target => ?_⟩
  refine render_eq_of_linkedAlike (u := ⟨ds⟩) (v := ⟨ds'⟩) hsize hsize' target.overlooks_unplaced fun r hr => ?_
  have hto := hf r (List.mem_flatMap.2 ⟨e, he, hr⟩)
  have hto' := hg r (List.mem_flatMap.2 ⟨e, he', hr⟩)
  exact hto.linkedAlike hunique' (hbare e he r hr) (hagree e he r hr) hto'

theorem agreeOn_of_perm (h : ds.Perm ds') (n : String) : (Table.mk ds).AgreeOn ⟨ds'⟩ n := fun _ _ => h.mem_iff

theorem exists_ofDeclarations_of_perm (h : ds.Perm ds') (hload : ∃ t, ofDeclarations ds = .ok t) :
    ∃ t', ofDeclarations ds' = .ok t' := by
  obtain ⟨hunique, hclear⟩ := exists_ofDeclarations_iff.1 hload
  have hunique' : (Table.mk ds').NamesUnique := (h.map Declaration.qualifiedName).nodup_iff.1 hunique
  refine exists_ofDeclarations_iff.2 ⟨hunique', fun r hr hamb => ?_⟩
  obtain ⟨d, hd, hrd⟩ := List.mem_flatMap.1 hr
  refine hclear r (List.mem_flatMap.2 ⟨d, h.mem_iff.2 hd, hrd⟩) ?_
  exact hamb.of_agreeOn hunique' (agreeOn_of_perm h.symm r.name)

/-- The order of the declarations does not matter: a list is loaded if a permutation of it is, and then a
declaration becomes the same file, or is refused with the same error, whatever its handle is. Handles have 32 bits,
so a table tells as many declarations apart. -/
theorem order_keeps_files (hbare : ∀ d ∈ ds, d.Unlinked) (hperm : ds.Perm ds') :
    ((∃ t, ofDeclarations ds = .ok t) ↔ ∃ t', ofDeclarations ds' = .ok t') ∧
    ∀ t t', ofDeclarations ds = .ok t → ofDeclarations ds' = .ok t' →
      (∀ q, t.Qualifies q ↔ t'.Qualifies q) ∧
      ∀ d ∈ t.declarations, ∀ d' ∈ t'.declarations, d.qualifiedName = d'.qualifiedName → ∀ target : Target,
        (∀ root, d.outputPath target.dialect root = d'.outputPath target.dialect root) ∧
        (ds.length ≤ UInt32.size → d.render target.dialect t = d'.render target.dialect t') := by
  refine ⟨⟨exists_ofDeclarations_of_perm hperm, exists_ofDeclarations_of_perm hperm.symm⟩, ?_⟩
  intro t t' hload hload'
  constructor
  · intro q
    rw [qualifies_of_ofDeclarations hload, qualifies_of_ofDeclarations hload']
    simp only [hperm.mem_iff]
  · intro d hd d' hd' hname target
    obtain ⟨hpath, hrender⟩ := files_eq_of_agreeOn hload hload' (fun d => hperm.mem_iff.1) hbare
      (fun _ _ r _ => agreeOn_of_perm hperm r.name) hd hd' hname
    refine ⟨hpath target.dialect, fun hsize => hrender hsize ?_ target⟩
    rwa [← hperm.length_eq]

theorem graphs_order_keeps_files : (∀ d ∈ graphs, d.Unlinked) ∧ graphs.Perm graphs.reverse ∧
    ∃ t t', ofDeclarations graphs = .ok t ∧ ofDeclarations graphs.reverse = .ok t' ∧
    ∃ d ∈ t.declarations, ∃ d' ∈ t'.declarations, d.qualifiedName = "c.Graph" ∧ d'.qualifiedName = "c.Graph" ∧
      d.render .csharp t = d'.render .csharp t' := by
  have hbare : ∀ d ∈ graphs, d.Unlinked := by
    simp only [Declaration.Unlinked]
    decide
  have hperm : graphs.Perm graphs.reverse := graphs.reverse_perm.symm
  obtain ⟨hloads, hfiles⟩ := order_keeps_files hbare hperm
  obtain ⟨t, ht⟩ : ∃ t, ofDeclarations graphs = .ok t := exists_ok (by decide)
  obtain ⟨t', ht'⟩ := hloads.1 ⟨t, ht⟩
  obtain ⟨hnames, hsame⟩ := hfiles t t' ht ht'
  obtain ⟨d, hd, hq⟩ : t.Qualifies "c.Graph" := (qualifies_of_ofDeclarations ht _).2 (by decide)
  obtain ⟨d', hd', hq'⟩ := (hnames "c.Graph").1 ⟨d, hd, hq⟩
  obtain ⟨-, hrender⟩ := hsame d hd d' hd' (hq.trans hq'.symm) (.csharp .standard .deferConstructions)
  exact ⟨hbare, hperm, t, t', ht, ht', d, hd, d', hd', hq, hq', hrender (by decide)⟩

/-- A further declaration that is not mentioned by the others, neither by its simple name nor by its qualified
name, changes none of their files. -/
theorem unmentioned_keeps_files {before after : List Declaration} {x : Declaration}
    (hbare : ∀ d ∈ before ++ after, d.Unlinked)
    (hfresh : ∀ d ∈ before ++ after, ∀ r ∈ d.walkRefs, r.name ≠ x.name ∧ r.name ≠ x.qualifiedName)
    (hload : ofDeclarations (before ++ after) = .ok t) (hload' : ofDeclarations (before ++ x :: after) = .ok t') :
    (∀ q, t.Qualifies q → t'.Qualifies q) ∧
    ∀ d ∈ t.declarations, ∀ d' ∈ t'.declarations, d.qualifiedName = d'.qualifiedName → ∀ target : Target,
      (before ++ x :: after).length ≤ UInt32.size → d.render target.dialect t = d'.render target.dialect t' := by
  have hsub (d : Declaration) (hd : d ∈ before ++ after) : d ∈ before ++ x :: after := by
    simp only [List.mem_append, List.mem_cons] at hd ⊢
    tauto
  have hagree (d : Declaration) (hd : d ∈ before ++ after) (r : Ref) (hr : r ∈ d.walkRefs) :
      (Table.mk (before ++ after)).AgreeOn ⟨before ++ x :: after⟩ r.name := by
    obtain ⟨hsimple, hqualified⟩ := hfresh d hd r hr
    intro e he
    have hne : e ≠ x := by
      rintro rfl
      obtain he | he := he
      · exact hsimple he.symm
      · exact hqualified he.symm
    simp [hne]
  constructor
  · intro q
    rw [qualifies_of_ofDeclarations hload, qualifies_of_ofDeclarations hload']
    rintro ⟨d, hd, hq⟩
    exact ⟨d, hsub d hd, hq⟩
  · intro d hd d' hd' hname target hsize
    obtain ⟨-, hrender⟩ := files_eq_of_agreeOn hload hload' hsub hbare hagree hd hd' hname
    refine hrender (le_trans ?_ hsize) hsize target
    simp

def otherNode : Declaration := { kind := .classKind none, package := "b", name := "Node" }

theorem graph_kept_with_otherNode : (∀ d ∈ graphs.take 1 ++ graphs.drop 2, d.Unlinked) ∧
    (∀ d ∈ graphs.take 1 ++ graphs.drop 2, ∀ r ∈ d.walkRefs,
      r.name ≠ otherNode.name ∧ r.name ≠ otherNode.qualifiedName) ∧
    ∃ t t', ofDeclarations (graphs.take 1 ++ graphs.drop 2) = .ok t ∧
    ofDeclarations (graphs.take 1 ++ otherNode :: graphs.drop 2) = .ok t' ∧
    ∃ d ∈ t.declarations, ∃ d' ∈ t'.declarations, d.qualifiedName = "c.Graph" ∧ d'.qualifiedName = "c.Graph" ∧
      d.render .brace t = d'.render .brace t' := by
  have hbare : ∀ d ∈ graphs.take 1 ++ graphs.drop 2, d.Unlinked := by
    simp only [Declaration.Unlinked]
    decide
  have hfresh : ∀ d ∈ graphs.take 1 ++ graphs.drop 2, ∀ r ∈ d.walkRefs,
      r.name ≠ otherNode.name ∧ r.name ≠ otherNode.qualifiedName := by decide
  obtain ⟨t, ht⟩ : ∃ t, ofDeclarations (graphs.take 1 ++ graphs.drop 2) = .ok t := exists_ok (by decide)
  obtain ⟨t', ht'⟩ : ∃ t', ofDeclarations (graphs.take 1 ++ otherNode :: graphs.drop 2) = .ok t' :=
    exists_ok (by decide)
  obtain ⟨hnames, hsame⟩ := unmentioned_keeps_files hbare hfresh ht ht'
  obtain ⟨d, hd, hq⟩ : t.Qualifies "c.Graph" := (qualifies_of_ofDeclarations ht _).2 (by decide)
  obtain ⟨d', hd', hq'⟩ := hnames "c.Graph" ⟨d, hd, hq⟩
  have hrender := hsame d hd d' hd' (hq.trans hq'.symm) .brace (by decide)
  exact ⟨hbare, hfresh, t, t', ht, ht', d, hd, d', hd', hq, hq', hrender⟩

end Loaded

end Table

end Stencil
