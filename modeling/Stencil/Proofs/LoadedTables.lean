import Stencil.Dialect.CSharp
import Stencil.Proofs.Documents
import Stencil.Proofs.ImportedPackages
import Stencil.Proofs.Linking
import Stencil.Table.Reader

/-! Tables read from a text whose references carry no handles: what becomes of the references, and how they are
written in the files of the declarations. -/
namespace Stencil

namespace Declaration

variable (δ : Dialect) (t : Table) (d : Declaration)

def Unlinked : Prop := ∀ r ∈ d.walkRefs, r.handle = none

def headerWith (name : String) : String :=
  (if d.isInterface then Dialect.interfaceHeader name else δ.classHeader name d.isFinal) ++
    (Dialect.inheritance? (d.base?.map δ.type) (d.interfaces.map δ.type)).getD ""

/-- The file of the declaration, if there is one, declares a type of this name. -/
def DeclaresType (name : String) : Prop := ∀ l, d.render δ t = .ok l →
  ∃ doc, d.document δ t = .ok doc ∧ l.Holds (doc.rows δ) ∧ doc.type.header = d.headerWith δ name

def ImportsPackage (package : String) : Prop := ∀ l, d.render δ t = .ok l →
  ∃ doc, d.document δ t = .ok doc ∧ l.Holds (doc.rows δ) ∧
    δ.importStatement (δ.namespaceName package) ∈ doc.imports

variable {δ t d}

theorem typeText_header {type : TypeText} (h : d.typeText δ = .ok type) :
    type.header = d.headerWith δ (δ.naming.typeName d.name) := by
  cases hk : d.kind with
  | interfaceKind =>
    have hi : d.isInterface = true := by simp [isInterface, hk]
    simp only [typeText, hi, if_true, Except.ok.injEq] at h
    rw [← h]
    simp [interfaceText, TypeText.header, headerWith, Dialect.interfaceLine, hi, base?, hk]
  | classKind base =>
    have hi : d.isInterface = false := by simp [isInterface, hk]
    simp only [typeText, hi, Bool.false_eq_true, if_false, map_eq_ok] at h
    obtain ⟨o, ho, rfl⟩ := h
    obtain ⟨members, -, rfl⟩ := map_eq_ok.1 ho
    simp [TypeText.header, outlineOf, headerWith, Dialect.classLine, hi]

theorem declaresType (δ : Dialect) (t : Table) (d : Declaration) :
    d.DeclaresType δ t (δ.naming.typeName d.name) := by
  intro l hl
  obtain ⟨imports, type, himports, htype, hholds⟩ := render_documentOf hl
  exact ⟨_, document_eq_ok.2 ⟨imports, himports, type, htype, rfl⟩, hholds, typeText_header htype⟩

theorem importsPackage {r : Ref} {D : Declaration} {h : Handle} (hr : r ∈ d.walkRefs)
    (hh : r.handle = some h) (hget : t.get? h = some D) (hpkg : D.package ≠ "") :
    d.ImportsPackage δ t D.package := by
  intro l hl
  obtain ⟨imports, type, himports, htype, hholds⟩ := render_documentOf hl
  refine ⟨_, document_eq_ok.2 ⟨imports, himports, type, htype, rfl⟩, hholds, ?_⟩
  have hmem : D.package ∈ imports.packages := by
    rw [mem_imports himports]
    exact ⟨hpkg, r, hr, by simp [package?, hh, hget]⟩
  exact List.mem_map_of_mem hmem

end Declaration

namespace Table

/-- The reference has the handle and the simple name of the declaration at this position. -/
def Linked (t : Table) (r : Ref) (i : Nat) (D : Declaration) : Prop :=
  t.declarations[i]? = some D ∧ r = ⟨D.name, some (handleAt i)⟩

variable {t : Table}

theorem ofText_eq_ok {text : String} : ofText text = .ok t ↔
    ∃ ds, Declaration.parseList? text = some ds ∧ ofDeclarations ds = .ok t := by
  cases hp : Declaration.parseList? text <;> simp [ofText, hp]

theorem ofDeclarations_of_ofText {text : String} {ds : List Declaration}
    (hread : Declaration.parseList? text = some ds) (hload : ofText text = .ok t) :
    ofDeclarations ds = .ok t := by
  obtain ⟨_, hread', hdecls⟩ := ofText_eq_ok.1 hload
  rwa [Option.some.inj (hread.symm.trans hread')]

theorem ofDeclarations_eq_ok {ds : List Declaration} : ofDeclarations ds = .ok t ↔
    ∃ u, ({} : Table).insertAll ds = .ok u ∧ u.link = .ok t := bind_eq_ok

theorem ofDeclarations_eq_ok_iff {ds : List Declaration} {t : Table} : ofDeclarations ds = .ok t ↔
    (Table.mk ds).NamesUnique ∧ ∃ f : Ref → Ref,
      (∀ r ∈ (Table.mk ds).walkRefs, (Table.mk ds).LinksTo r (f r)) ∧ t = ⟨ds.map (·.mapRefs f)⟩ := by
  rw [ofDeclarations_eq_ok]
  constructor
  · rintro ⟨u, hu, hlink⟩
    obtain rfl : u = ⟨ds⟩ := congrArg Table.mk (by simpa using insertAll_declarations hu)
    have hunique := insertAll_namesUnique hu List.nodup_nil
    exact ⟨hunique, (link_eq_ok hunique).1 hlink⟩
  · rintro ⟨hunique, hf⟩
    exact ⟨⟨ds⟩, insertAll_of_namesUnique hunique, (link_eq_ok hunique).2 hf⟩

theorem namesUnique_of_ofDeclarations {ds : List Declaration} {t : Table} (h : ofDeclarations ds = .ok t) :
    t.NamesUnique := by
  obtain ⟨hunique, f, -, rfl⟩ := ofDeclarations_eq_ok_iff.1 h
  rw [NamesUnique, List.map_map]
  exact hunique

theorem exists_ofDeclarations_iff {ds : List Declaration} : (∃ t, ofDeclarations ds = .ok t) ↔
    (Table.mk ds).NamesUnique ∧ ∀ r ∈ (Table.mk ds).walkRefs, ¬(Table.mk ds).AmbiguousRef r := by
  simp only [ofDeclarations_eq_ok_iff]
  constructor
  · rintro ⟨t, hunique, f, hf, -⟩
    exact ⟨hunique, fun r hr => (hf r hr).not_ambiguousRef hunique⟩
  · rintro ⟨hunique, hclear⟩
    refine ⟨_, hunique, fun r => ((Table.mk ds).linkRef r).toOption.getD r, fun r hr => ?_, rfl⟩
    obtain ⟨s, hs⟩ := errorOf?_eq_none.1 ((linkRef_errorOf?_eq_none hunique).2 (hclear r hr))
    simpa [hs, Except.toOption] using linkRef_ok hs

theorem namesUnique_of_ofText {text : String} (h : ofText text = .ok t) : t.NamesUnique := by
  obtain ⟨ds, -, hdecls⟩ := ofText_eq_ok.1 h
  exact namesUnique_of_ofDeclarations hdecls

theorem linked_of_handle {ds : List Declaration} (hbare : ∀ d ∈ ds, d.Unlinked)
    (hload : ofDeclarations ds = .ok t) {d : Declaration} (hd : d ∈ t.declarations) {r : Ref}
    (hr : r ∈ d.walkRefs) {h : Handle} (hh : r.handle = some h) : ∃ i D, t.Linked r i D := by
  obtain ⟨u, hu, hlink⟩ := ofDeclarations_eq_ok.1 hload
  have hds : u.declarations = ds := by simpa using insertAll_declarations hu
  obtain ⟨f, hf, rfl⟩ := (link_eq_ok (insertAll_namesUnique hu List.nodup_nil)).1 hlink
  obtain ⟨e, he, rfl⟩ := List.mem_map.1 hd
  -- the reference is the image of one of the input, which had no handle
  rw [Declaration.walkRefs_mapRefs] at hr
  obtain ⟨s, hs, rfl⟩ := List.mem_map.1 hr
  have hnone : s.handle = none := hbare e (hds ▸ he) s hs
  have hto := hf s (List.mem_flatMap.2 ⟨e, he, hs⟩)
  generalize f s = r at hh hto
  cases hto with
  | linked hlinked => exact absurd (hlinked.symm.trans hnone) (by simp)
  | builtIn _ _ => exact absurd (hh.symm.trans hnone) (by simp)
  | @declared i D _ hres =>
    refine ⟨i, D.mapRefs f, ?_, rfl⟩
    simp [hres.getElem?]

theorem Linked.exists_get? {r : Ref} {i : Nat} {D : Declaration} (h : t.Linked r i D) :
    ∃ E, t.get? (handleAt i) = some E := by
  obtain ⟨hi, -⟩ := List.getElem?_eq_some_iff.1 h.1
  have hmod : i % UInt32.size < t.declarations.length := lt_of_le_of_lt (Nat.mod_le _ _) hi
  exact ⟨_, (get?_handleAt t i).trans (List.getElem?_eq_getElem hmod)⟩

theorem Linked.get? {r : Ref} {i : Nat} {D : Declaration} (h : t.Linked r i D)
    (hsize : t.size ≤ UInt32.size) : t.get? (handleAt i) = some D := by
  obtain ⟨hi, -⟩ := List.getElem?_eq_some_iff.1 h.1
  rw [get?_handleAt, Nat.mod_eq_of_lt (lt_of_lt_of_le hi hsize)]
  exact h.1

/-- In a table read without handles every reference that is linked leads to a declaration. It is written like
the name under which the file of that declaration declares its type, and the package of the declaration is
imported. Handles have 32 bits, so a handle tells one declaration from all others as long as the table has
no more declarations than there are handles. -/
theorem linked_refs_named_and_imported {text : String} {ds : List Declaration}
    (hread : Declaration.parseList? text = some ds) (hbare : ∀ d ∈ ds, d.Unlinked)
    (hload : ofText text = .ok t) (δ : Dialect) {d : Declaration} (hd : d ∈ t.declarations) :
    (∃ imports, d.imports t = .ok imports) ∧
    ∀ r ∈ d.walkRefs, ∀ h, r.handle = some h → ∃ D, t.get? h = some D ∧
      (t.size ≤ UInt32.size → D.DeclaresType δ t (δ.type (.named r))) ∧
      (D.package ≠ "" → d.ImportsPackage δ t D.package) := by
  have hdecls := ofDeclarations_of_ofText hread hload
  have hlinked (r : Ref) (hr : r ∈ d.walkRefs) (h : Handle) (hh : r.handle = some h) :
      ∃ i D, t.Linked r i D ∧ h = handleAt i := by
    obtain ⟨i, D, hget, hname⟩ := linked_of_handle hbare hdecls hd hr hh
    rw [hname, Option.some.injEq] at hh
    exact ⟨i, D, ⟨hget, hname⟩, hh.symm⟩
  constructor
  · refine ⟨_, Declaration.imports_eq_ok.2 ⟨fun r hr => ?_, rfl⟩⟩
    cases hh : r.handle with
    | none => simp [Lint.dangling?, hh]
    | some h =>
      obtain ⟨i, D, hl, rfl⟩ := hlinked r hr h hh
      obtain ⟨E, hE⟩ := hl.exists_get?
      simp [Lint.dangling?, hh, hE, Option.filter_some]
  · intro r hr h hh
    obtain ⟨i, D, hl, rfl⟩ := hlinked r hr h hh
    obtain ⟨E, hE⟩ := hl.exists_get?
    refine ⟨E, hE, fun hsize => ?_, Declaration.importsPackage hr hh hE⟩
    have hDE : D = E := Option.some.inj ((hl.get? hsize).symm.trans hE)
    have htype : δ.type (.named r) = δ.naming.typeName E.name := by
      rw [← hDE, hl.2]
      rfl
    rw [htype]
    exact Declaration.declaresType δ t E

def edgeText : String :=
  "[\x7b\"kind\":\"class\",\"package\":\"a\",\"name\":\"Node\"\x7d," ++
  "\x7b\"kind\":\"class\",\"package\":\"b\",\"name\":\"Node\"\x7d," ++
  "\x7b\"kind\":\"class\",\"name\":\"Edge\",\"interfaces\":[[\"class\",\"a.Node\"],[\"class\",\"b.Node\"]]\x7d]"

def edgeRefs : List Ref := [⟨"Node", some ⟨0⟩⟩, ⟨"Node", some ⟨1⟩⟩]

def isEdgeTable (t : Table) : Bool :=
  match t.declarations with
  | [A, B, E] => A.package == "a" && B.package == "b" &&
      E.signatureTypes.flatMap TypeExpr.refs == edgeRefs && (E.render .csharp t).isOk
  | _ => false

theorem edge_loads : ∃ ds A B E, Declaration.parseList? edgeText = some ds ∧ (∀ d ∈ ds, d.Unlinked) ∧
    ofText edgeText = .ok ⟨[A, B, E]⟩ ∧ A.package = "a" ∧ B.package = "b" ∧
    E.signatureTypes.flatMap TypeExpr.refs = edgeRefs ∧ ∃ l, E.render .csharp ⟨[A, B, E]⟩ = .ok l := by
  -- all that is asked about the table is asked at once, so that the text is read only once
  have hread : ((Declaration.parseList? edgeText).any fun ds =>
      ds.all (fun d => d.walkRefs.all (·.handle.isNone)) &&
        (ofDeclarations ds).toOption.any isEdgeTable) = true := by decide +kernel
  obtain ⟨ds, hds, hread⟩ := (Option.any_eq_true _ _).1 hread
  rw [Bool.and_eq_true] at hread
  obtain ⟨hbare, hread⟩ := hread
  cases hload : ofDeclarations ds with
  | error e => simp [hload, Except.toOption] at hread
  | ok t =>
    have htable : t.isEdgeTable = true := by simpa [hload, Except.toOption] using hread
    rw [isEdgeTable] at htable
    split at htable
    · next A B E hdecls =>
      simp only [Bool.and_eq_true, beq_iff_eq] at htable
      obtain ⟨⟨⟨hA, hB⟩, hE⟩, hrender⟩ := htable
      obtain rfl : t = ⟨[A, B, E]⟩ := congrArg Table.mk hdecls
      refine ⟨ds, A, B, E, hds, ?_, ofText_eq_ok.2 ⟨ds, hds, hload⟩, hA, hB, hE, exists_ok hrender⟩
      simpa [Declaration.Unlinked] using hbare
    · cases htable

theorem mem_walkRefs_of_signature {d : Declaration} {r : Ref} (h : r ∈ d.signatureTypes.flatMap TypeExpr.refs) :
    r ∈ d.walkRefs := by
  rw [Declaration.walkRefs, List.append_assoc, List.flatMap_append]
  exact List.mem_append_left _ h

theorem edge_named_and_imported : ∃ ds A B E r, Declaration.parseList? edgeText = some ds ∧
    (∀ d ∈ ds, d.Unlinked) ∧ ofText edgeText = .ok ⟨[A, B, E]⟩ ∧ r ∈ E.walkRefs ∧
    r.handle = some ⟨1⟩ ∧ (∃ l, E.render .csharp ⟨[A, B, E]⟩ = .ok l) ∧
    B.DeclaresType .csharp ⟨[A, B, E]⟩ "Node" ∧ E.ImportsPackage .csharp ⟨[A, B, E]⟩ "b" := by
  obtain ⟨ds, A, B, E, hds, hbare, hload, -, hB, hE, hrender⟩ := edge_loads
  have hr : (⟨"Node", some ⟨1⟩⟩ : Ref) ∈ E.walkRefs :=
    mem_walkRefs_of_signature (hE ▸ List.mem_cons_of_mem _ List.mem_cons_self)
  have hmem : E ∈ (Table.mk [A, B, E]).declarations := by simp
  obtain ⟨-, hlinked⟩ := linked_refs_named_and_imported hds hbare hload .csharp hmem
  obtain ⟨D, hD, htype, hpkg⟩ := hlinked _ hr ⟨1⟩ rfl
  obtain rfl : B = D := by simpa [get?] using hD
  refine ⟨ds, A, B, E, _, hds, hbare, hload, hr, rfl, hrender, ?_, ?_⟩
  · have hspelled : Dialect.csharp.type (.named ⟨"Node", some ⟨1⟩⟩) = "Node" := by decide +kernel
    rw [← hspelled]
    exact htype (by simp [size, UInt32.size])
  · rw [hB] at hpkg
    exact hpkg (by decide)

end Table

end Stencil
