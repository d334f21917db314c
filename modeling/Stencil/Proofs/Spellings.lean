import Stencil.Proofs.LoadedTables

/-! Which names come out alike when reserved words are escaped, and so which references of a file cannot be
told apart. -/
namespace Stencil

namespace Naming

variable (n : Naming)

/-- The same name, or a reserved word and what it is escaped to. -/
def SpelledAlike (a b : String) : Prop :=
  a = b ∨ n.isReserved a = true ∧ b = n.escape a ∨ n.isReserved b = true ∧ a = n.escape b

variable {n}

theorem safe_eq_iff (hinj : Function.Injective n.escape) (hfree : ∀ a, n.isReserved (n.escape a) = false)
    (a b : String) : n.safe a = n.safe b ↔ n.SpelledAlike a b := by
  -- an escaped name is not reserved, so it is told from every reserved word
  have hne {a b : String} (hb : n.isReserved b = true) : b ≠ n.escape a := by
    intro h
    rw [h, hfree] at hb
    cases hb
  cases ha : n.isReserved a with
  | true =>
    cases hb : n.isReserved b with
    | true => simp [safe, SpelledAlike, ha, hb, hinj.eq_iff, hne ha, hne hb]
    | false =>
      have hab : a ≠ b := by
        intro h
        rw [h, hb] at ha
        cases ha
      simp [safe, SpelledAlike, ha, hb, hab, eq_comm]
  | false =>
    cases hb : n.isReserved b with
    | true =>
      have hab : a ≠ b := by
        intro h
        rw [h, hb] at ha
        cases ha
      simp [safe, SpelledAlike, ha, hb, hab]
    | false => simp [safe, SpelledAlike, ha, hb]

end Naming

namespace Dialect.CSharp

theorem escape_injective : Function.Injective naming.escape := by
  intro a b h
  exact String.append_right_inj "@" |>.1 h

theorem escape_free (a : String) : naming.isReserved (naming.escape a) = false := by
  have hhead : ∀ w ∈ reserved, w.toList.head? ≠ some '@' := by decide +kernel
  have hmem : "@" ++ a ∉ reserved := by
    intro h
    exact hhead _ h (by simp [String.toList_append])
  simpa [Naming.isReserved, naming] using hmem

theorem typeName_eq_iff (a b : String) :
    naming.typeName a = naming.typeName b ↔ naming.SpelledAlike a b :=
  Naming.safe_eq_iff escape_injective escape_free a b

end Dialect.CSharp

namespace Table

def SpellsApart (δ : Dialect) (t : Table) : Prop :=
  ∀ d ∈ t.declarations, ∀ r ∈ d.signatureTypes.flatMap TypeExpr.refs,
    ∀ s ∈ d.signatureTypes.flatMap TypeExpr.refs, ∀ h k, r.handle = some h → s.handle = some k →
      h ≠ k → δ.type (.named r) ≠ δ.type (.named s)

variable {t : Table}

/-- Two references of a declaration that lead to different declarations are written alike exactly if these
have simple names that are spelled alike. -/
theorem refs_spelled_alike_iff {text : String} {ds : List Declaration}
    (hread : Declaration.parseList? text = some ds) (hbare : ∀ d ∈ ds, d.Unlinked)
    (hload : ofText text = .ok t) (indent : Indent) (policy : InitPolicy) {d : Declaration}
    (hd : d ∈ t.declarations) {r s : Ref} (hr : r ∈ d.walkRefs) (hs : s ∈ d.walkRefs) {h k : Handle}
    (hh : r.handle = some h) (hk : s.handle = some k) (hne : h ≠ k) :
    ∃ i j D E, i ≠ j ∧ t.Linked r i D ∧ t.Linked s j E ∧
      ((Dialect.csharp indent policy).type (.named r) = (Dialect.csharp indent policy).type (.named s) ↔
        Dialect.CSharp.naming.SpelledAlike D.name E.name) := by
  have hdecls := ofDeclarations_of_ofText hread hload
  obtain ⟨i, D, hD, rfl⟩ := linked_of_handle hbare hdecls hd hr hh
  obtain ⟨j, E, hE, rfl⟩ := linked_of_handle hbare hdecls hd hs hk
  refine ⟨i, j, D, E, ?_, ⟨hD, rfl⟩, ⟨hE, rfl⟩, Dialect.CSharp.typeName_eq_iff D.name E.name⟩
  intro hij
  apply hne
  rw [← Option.some.inj hh, ← Option.some.inj hk, hij]

theorem edge_refs_spelled_alike : ∃ ds A B E r s, Declaration.parseList? edgeText = some ds ∧
    (∀ d ∈ ds, d.Unlinked) ∧ ofText edgeText = .ok ⟨[A, B, E]⟩ ∧ r ∈ E.walkRefs ∧ s ∈ E.walkRefs ∧
    r.handle = some ⟨0⟩ ∧ s.handle = some ⟨1⟩ ∧
    ∃ i j D F, i ≠ j ∧ (Table.mk [A, B, E]).Linked r i D ∧ (Table.mk [A, B, E]).Linked s j F ∧
      Dialect.CSharp.naming.SpelledAlike D.name F.name := by
  obtain ⟨ds, A, B, E, hds, hbare, hload, -, -, hE, -⟩ := edge_loads
  have hr : (⟨"Node", some ⟨0⟩⟩ : Ref) ∈ E.walkRefs := mem_walkRefs_of_signature (hE ▸ List.mem_cons_self)
  have hs : (⟨"Node", some ⟨1⟩⟩ : Ref) ∈ E.walkRefs :=
    mem_walkRefs_of_signature (hE ▸ List.mem_cons_of_mem _ List.mem_cons_self)
  have hmem : E ∈ (Table.mk [A, B, E]).declarations := by simp
  obtain ⟨i, j, D, F, hij, hD, hF, halike⟩ := refs_spelled_alike_iff hds hbare hload
    .standard .deferConstructions hmem hr hs rfl rfl (by decide)
  exact ⟨ds, A, B, E, _, _, hds, hbare, hload, hr, hs, rfl, rfl, i, j, D, F, hij, hD, hF, halike.1 rfl⟩

theorem edge_not_spellsApart : ∃ ds t, Declaration.parseList? edgeText = some ds ∧
    (∀ d ∈ ds, d.Unlinked) ∧ ofText edgeText = .ok t ∧ ¬t.SpellsApart .csharp := by
  obtain ⟨ds, A, B, E, hds, hbare, hload, -, -, hE, -⟩ := edge_loads
  refine ⟨ds, _, hds, hbare, hload, fun hapart => ?_⟩
  have hr : (⟨"Node", some ⟨0⟩⟩ : Ref) ∈ E.signatureTypes.flatMap TypeExpr.refs := hE ▸ List.mem_cons_self
  have hs : (⟨"Node", some ⟨1⟩⟩ : Ref) ∈ E.signatureTypes.flatMap TypeExpr.refs :=
    hE ▸ List.mem_cons_of_mem _ List.mem_cons_self
  exact hapart E (by simp) _ hr _ hs ⟨0⟩ ⟨1⟩ rfl rfl (by decide) rfl

end Table

end Stencil
