import Stencil.Emission.Basic
import Stencil.Proofs.Reloading
import Stencil.Proofs.TableRuns

/-! Links that stay. Main statement: a second link changes nothing; whatever is inserted or linked later, a reference
keeps its handle and its name, and a declaration whose references all have handles keeps its text. -/
namespace Stencil

namespace Table

/-- Every declaration keeps its position, and some of its references may get handles. -/
def Grows (t t' : Table) : Prop := ∀ (i : Nat) (d : Declaration), t.declarations[i]? = some d →
  ∃ e, t'.declarations[i]? = some e ∧ d.Settles e

variable {t t' t'' : Table}

theorem Grows.refl (t : Table) : t.Grows t := fun _ d hd => ⟨d, hd, .refl d⟩

theorem Grows.trans (h : t.Grows t') (h' : t'.Grows t'') : t.Grows t'' := by
  intro i d hd
  obtain ⟨e, he, hde⟩ := h i d hd
  obtain ⟨c, hc, hec⟩ := h' i e he
  exact ⟨c, hc, hde.trans hec⟩

theorem History.Step.grows {s s' : History} (h : Step s s') : s.table.Grows s'.table := by
  cases h with
  | refused => exact .refl _
  | inserted hnew =>
    intro i d hd
    exact ⟨d, List.getElem?_append_left (List.getElem?_eq_some_iff.1 hd).1 ▸ hd, .refl d⟩
  | @linked f hf =>
    intro i d hd
    exact ⟨d.mapRefs f, by simp [hd], f, hf, rfl⟩

theorem History.grows_run (ops : List Operation) (s : History) : s.table.Grows (run ops s).table := by
  induction ops generalizing s with
  | nil => exact .refl _
  | cons op ops ih => exact (step_step op s).grows.trans (ih (step op s))

theorem Grows.get? (hg : t.Grows t') {h : Handle} {d : Declaration} (hd : t.get? h = some d) :
    ∃ e, t'.get? h = some e ∧ d.Settles e := hg h.index.toNat d hd

theorem Grows.ref_kept (hg : t.Grows t') {r : Ref} (hr : Lint.dangling? t r = none) :
    Lint.dangling? t' r = none ∧ Declaration.package? t' r = Declaration.package? t r := by
  cases hh : r.handle with
  | none => simp [Lint.dangling?, Declaration.package?, hh]
  | some h =>
    cases hd : t.get? h with
    | none => simp [Lint.dangling?, hh, hd, Option.filter_some] at hr
    | some d =>
      obtain ⟨e, he, hde⟩ := hg.get? hd
      simp [Lint.dangling?, Declaration.package?, hh, hd, he, Option.filter_some, hde.package]

theorem Grows.imports_eq (hg : t.Grows t') {d : Declaration} {imports : Imports} (h : d.imports t = .ok imports) :
    d.imports t' = .ok imports := by
  obtain ⟨hleads, hpackages⟩ := Declaration.imports_eq_ok.1 h
  refine Declaration.imports_eq_ok.2 ⟨fun r hr => (hg.ref_kept (hleads r hr)).1, ?_⟩
  rw [← hpackages]
  congr 2
  refine List.map_congr_left fun entry hentry => (hg.ref_kept (hleads entry.2 ?_)).2
  exact Declaration.mem_walkRefs.2 ⟨entry.1, hentry⟩

theorem Grows.render_eq (hg : t.Grows t') {δ : Dialect} {d : Declaration} {l : Listing}
    (h : d.render δ t = .ok l) : d.render δ t' = .ok l := by
  obtain ⟨imports, himports, hfile⟩ := bind_eq_ok.1 h
  exact bind_eq_ok.2 ⟨imports, hg.imports_eq himports, hfile⟩

theorem ofDeclarations_eq_link (ht : t.NamesUnique) : ofDeclarations t.declarations = t.link := by
  have hins : ({} : Table).insertAll t.declarations = .ok t := insertAll_of_namesUnique ht
  rw [ofDeclarations, hins]
  rfl

theorem link_again (ht : t.NamesUnique) (h : t.link = .ok t') : t'.link = .ok t' := by
  rw [← ofDeclarations_eq_link ht] at h
  have ht' := namesUnique_of_ofDeclarations h
  rw [← ofDeclarations_eq_link ht']
  exact ofDeclarations_again h

/-- A table that was linked is left as it is by the next link. Whatever is inserted and linked later, each declaration
keeps its place and only gets handles where it had none; a reference with a handle keeps it and its name; and a
declaration whose references all have handles stays the same, and so does its text. -/
theorem links_stable_along_runs (ops ops' : List Operation) :
    (∀ t, (History.run ops {}).table.link = .ok t → t.link = .ok t) ∧
    (∀ (i : Nat) (d : Declaration), (History.run ops {}).table.declarations[i]? = some d →
      ∃ e, (History.run (ops ++ ops') {}).table.declarations[i]? = some e ∧ d.Settles e ∧
        ∀ (k : Nat) (r : Ref), d.walkRefs[k]? = some r → r.handle.isSome = true → e.walkRefs[k]? = some r) ∧
    ∀ d : Declaration, (∀ r ∈ d.walkRefs, r.handle.isSome = true) →
      (∀ h, (History.run ops {}).table.get? h = some d → (History.run (ops ++ ops') {}).table.get? h = some d) ∧
      ∀ δ l, d.render δ (History.run ops {}).table = .ok l →
        d.render δ (History.run (ops ++ ops') {}).table = .ok l := by
  have hsound := History.sound_run ops History.sound_empty
  have hgrows := History.grows_run ops' (History.run ops {})
  rw [← History.run_append] at hgrows
  refine ⟨fun t => link_again hsound.namesUnique, fun i d hd => ?_, fun d hlinked => ⟨fun h hd => ?_, ?_⟩⟩
  · obtain ⟨e, he, hde⟩ := hgrows i d hd
    refine ⟨e, he, hde, fun k r hr hhandle => ?_⟩
    obtain ⟨s, hs, hrs⟩ := hde.walkRefs_getElem? hr
    rwa [← hrs.eq_of_handle hhandle]
  · obtain ⟨e, he, hde⟩ := hgrows.get? hd
    rwa [hde.eq_of_linked hlinked] at he
  · exact fun δ l => hgrows.render_eq

def boardRun : List Operation := [
  .insert { kind := .classKind none, package := "a", name := "Pin" },
  .insert { kind := .classKind none, name := "Board"
            fields := [{ type := .vector (.named ⟨"Pin", none⟩), name := "pins" }] },
  .link]

def board : Declaration where
  kind := .classKind none
  name := "Board"
  fields := [{ type := .vector (.named ⟨"Pin", some ⟨0⟩⟩), name := "pins" }]

def pinRun : List Operation := [.insert { kind := .classKind none, package := "b", name := "Pin" }, .link]

theorem board_stable : (History.run boardRun {}).table.get? ⟨1⟩ = some board ∧
    (∀ r ∈ board.walkRefs, r.handle.isSome = true) ∧ (History.run (boardRun ++ pinRun) {}).table.size = 3 ∧
    (History.run (boardRun ++ pinRun) {}).table.get? ⟨1⟩ = some board ∧
    ∃ l, board.render .csharp (History.run boardRun {}).table = .ok l ∧
      board.render .csharp (History.run (boardRun ++ pinRun) {}).table = .ok l := by
  have hget : (History.run boardRun {}).table.get? ⟨1⟩ = some board := rfl
  have hlinked : ∀ r ∈ board.walkRefs, r.handle.isSome = true := by decide
  obtain ⟨l, hl⟩ := exists_ok (by decide +kernel : (board.render .csharp (History.run boardRun {}).table).isOk = true)
  obtain ⟨hkept, htext⟩ := (links_stable_along_runs boardRun pinRun).2.2 board hlinked
  exact ⟨hget, hlinked, rfl, hkept _ hget, l, hl, htext _ l hl⟩

end Table

end Stencil
