import Stencil.Proofs.ImportSets
import Stencil.Proofs.Spellings
import Mathlib.Data.Set.Function

/-! Namespaces and the names in them. A package is spelled segment by segment, so its dots stay where they are. Main
statement: no reserved word is left in what is spelled, and nothing that is told apart before is spelled alike, unless
it looks like an escaped name. -/
namespace Stencil

theorem map_injOn {α β : Type} {f : α → β} {s : Set α} (hf : Set.InjOn f s) :
    Set.InjOn (List.map f) {xs | ∀ x ∈ xs, x ∈ s} := by
  intro xs hxs ys hys h
  induction xs generalizing ys with
  | nil => exact (List.map_eq_nil_iff.1 h.symm).symm
  | cons x xs ih =>
    cases ys with
    | nil => cases h
    | cons y ys =>
      obtain ⟨hx, hxs⟩ := List.forall_mem_cons.1 hxs
      obtain ⟨hy, hys⟩ := List.forall_mem_cons.1 hys
      obtain ⟨hfirst, hrest⟩ := List.cons.inj h
      rw [hf hx hy hfirst, ih hxs hys hrest]

namespace Naming

variable {n : Naming}

theorem isReserved_safe (hfree : ∀ a, n.isReserved (n.escape a) = false) (a : String) :
    n.isReserved (n.safe a) = false := by
  cases ha : n.isReserved a with
  | true => rw [safe, if_pos ha, hfree]
  | false => rw [safe, if_neg (by simp [ha]), ha]

theorem safe_safe (hfree : ∀ a, n.isReserved (n.escape a) = false) (a : String) : n.safe (n.safe a) = n.safe a :=
  if_neg (ne_true_of_eq_false (isReserved_safe hfree a))

end Naming

namespace Dialect

def segments (package : String) : List String := (package.toList.splitOn '.').map String.ofList

theorem dot_not_mem_segment {package s : String} (h : s ∈ segments package) : '.' ∉ s.toList := by
  obtain ⟨cs, hcs, rfl⟩ := List.mem_map.1 h
  simpa using (mem_splitOn hcs).1

theorem segments_injective : Function.Injective segments := by
  intro p q h
  have hsplit := List.map_injective_iff.2 (fun _ _ => String.ofList_inj.1) h
  have hjoin := congrArg (['.'].intercalate ·) hsplit
  simpa only [List.intercalate_splitOn, String.toList_inj] using hjoin

theorem segments_intercalate {ss : List String} (hdot : ∀ s ∈ ss, '.' ∉ s.toList) (hne : ss ≠ []) :
    segments (".".intercalate ss) = ss := by
  rw [segments, String.toList_intercalate]
  change ((['.'].intercalate _).splitOn '.').map String.ofList = ss
  rw [List.splitOn_intercalate '.' (by simpa using hdot) (by simpa using hne), List.map_map]
  simp [Function.comp_def]

section Spelling

variable {δ : Dialect} (hdot : ∀ s, '.' ∉ s.toList → '.' ∉ (δ.naming.safe s).toList)
include hdot

theorem segments_namespaceName (package : String) :
    segments (δ.namespaceName package) = (segments package).map δ.naming.safe := by
  have hspelled : (package.toList.splitOn '.').map (fun s => δ.naming.safe (.ofList s)) =
      (segments package).map δ.naming.safe := by
    rw [segments, List.map_map, Function.comp_def]
  rw [namespaceName, hspelled]
  refine segments_intercalate ?_ (by simp [segments, List.splitOn_ne_nil])
  rw [List.forall_mem_map]
  exact fun s hs => hdot s (dot_not_mem_segment hs)

theorem namespaceName_again (hfree : ∀ a, δ.naming.isReserved (δ.naming.escape a) = false) (package : String) :
    δ.namespaceName (δ.namespaceName package) = δ.namespaceName package := by
  apply segments_injective
  rw [segments_namespaceName hdot, segments_namespaceName hdot, List.map_map]
  refine List.map_congr_left fun s _ => ?_
  exact Naming.safe_safe hfree s

theorem namespaceName_injOn {names : Set String} (hsafe : Set.InjOn δ.naming.safe names) :
    Set.InjOn δ.namespaceName {package | ∀ s ∈ segments package, s ∈ names} := by
  intro p hp q hq h
  apply segments_injective
  have hmap := congrArg segments h
  rw [segments_namespaceName hdot, segments_namespaceName hdot] at hmap
  exact map_injOn hsafe hp hq hmap

end Spelling

namespace CSharp

variable {indent : Indent} {policy : InitPolicy}

def Unmarked (name : String) : Prop := name.toList.head? ≠ some '@'

instance : DecidablePred Unmarked := fun _ => inferInstanceAs (Decidable (_ ≠ _))

theorem dot_not_mem_safe {s : String} (h : '.' ∉ s.toList) : '.' ∉ (naming.safe s).toList := by
  rw [Naming.safe]
  split
  · simpa [naming, String.toList_append] using h
  · exact h

theorem not_mem_reserved_safe (name : String) : naming.safe name ∉ reserved := by
  simpa [Naming.isReserved, naming] using Naming.isReserved_safe escape_free name

theorem safe_injOn : Set.InjOn naming.safe {name | Unmarked name} := by
  have hmark (a : String) : ¬Unmarked (naming.escape a) := by simp [Unmarked, naming, String.toList_append]
  intro a ha b hb h
  obtain h | ⟨-, h⟩ | ⟨-, h⟩ := (typeName_eq_iff a b).1 h
  · exact h
  · exact absurd (h ▸ hb) (hmark a)
  · exact absurd (h ▸ ha) (hmark b)

theorem className_not_mem_reserved (name : String) : (csharp indent policy).className name ∉ reserved := by
  -- the spellings of built-in classes are not escaped, but they are no reserved words either
  have hbuiltin : ∀ s ∈ builtin? name, s ∉ reserved := by
    intro s hs
    have hmem : s ∈ ["String", "Object", "Delegate", "Exception"] := by
      rw [builtin?] at hs
      split at hs
      · next h =>
        obtain rfl := Option.some.inj hs
        obtain rfl | rfl := h <;> simp
      · split at hs
        · simp [← Option.some.inj hs]
        · split at hs
          · simp [← Option.some.inj hs]
          · cases hs
    have hfree : ∀ s ∈ ["String", "Object", "Delegate", "Exception"], s ∉ reserved := by decide +kernel
    exact hfree s hmem
  change (builtin? name).getD (naming.safe name) ∉ reserved
  cases hname : builtin? name with
  | none => exact not_mem_reserved_safe name
  | some s => exact hbuiltin s hname

theorem segments_spelled (package : String) : segments ((csharp indent policy).namespaceName package) =
    (segments package).map naming.safe :=
  segments_namespaceName (δ := csharp indent policy) (fun _ => dot_not_mem_safe) package

theorem package_injOn :
    Set.InjOn (csharp indent policy).namespaceName {package | ∀ s ∈ segments package, Unmarked s} :=
  namespaceName_injOn (δ := csharp indent policy) (fun _ => dot_not_mem_safe) safe_injOn

theorem importLines_nodup {t : Table} {d : Declaration} {i : Imports} (hi : d.imports t = .ok i)
    (h : ∀ p ∈ i.packages, ∀ s ∈ segments p, Unmarked s) :
    (i.packages.map fun p =>
      (csharp indent policy).importStatement ((csharp indent policy).namespaceName p)).Nodup := by
  have hnodup : i.packages.Nodup := (Declaration.imports_sorted hi).imp ne_of_lt
  refine hnodup.map_on fun p hp q hq hline => ?_
  have hname : (csharp indent policy).namespaceName p = (csharp indent policy).namespaceName q :=
    (String.append_right_inj _).1 ((String.append_left_inj _).1 hline)
  exact package_injOn (h p hp) (h q hq) hname

variable (indent policy) in
/-- A namespace has as many segments as its package, none of them a reserved word, and is spelled like itself. Packages
without segments like escaped names are told apart by their namespaces, so that they stay apart in the imports of a
file. The same holds of single names. -/
theorem names_spelled_safely :
    (∀ package, (segments ((csharp indent policy).namespaceName package)).length = (segments package).length ∧
      (∀ s ∈ segments ((csharp indent policy).namespaceName package), s ∉ reserved) ∧
      (csharp indent policy).namespaceName ((csharp indent policy).namespaceName package) =
        (csharp indent policy).namespaceName package) ∧
    Set.InjOn (csharp indent policy).namespaceName {package | ∀ s ∈ segments package, Unmarked s} ∧
    (∀ (t : Table) (d : Declaration) (i : Imports), d.imports t = .ok i →
      (∀ p ∈ i.packages, ∀ s ∈ segments p, Unmarked s) →
      (i.packages.map fun p =>
        (csharp indent policy).importStatement ((csharp indent policy).namespaceName p)).Nodup) ∧
    (∀ name, (csharp indent policy).identifier name ∉ reserved ∧ naming.typeName name ∉ reserved ∧
      (csharp indent policy).className name ∉ reserved) ∧
    Set.InjOn (csharp indent policy).identifier {name | Unmarked name} := by
  refine ⟨fun package => ⟨?_, ?_, ?_⟩, package_injOn, fun t d i => importLines_nodup, fun name => ?_, safe_injOn⟩
  · rw [segments_spelled, List.length_map]
  · rw [segments_spelled, List.forall_mem_map]
    exact fun s _ => not_mem_reserved_safe s
  · exact namespaceName_again (δ := csharp indent policy) (fun _ => dot_not_mem_safe) escape_free package
  · exact ⟨not_mem_reserved_safe name, not_mem_reserved_safe name, className_not_mem_reserved name⟩

def stage : Table where
  declarations :=
    [{ kind := .classKind none, package := "game.event", name := "A" },
      { kind := .classKind none, package := "game..new", name := "B" },
      { kind := .classKind none, name := "Stage", interfaces := [.named ⟨"A", some ⟨0⟩⟩, .named ⟨"B", some ⟨1⟩⟩] }]

theorem stage_spelled_safely : ∃ d ∈ stage.declarations, ∃ i, d.imports stage = .ok i ∧
    i.packages = ["game..new", "game.event"] ∧
    i.packages.map csharp.namespaceName = ["game..@new", "game.@event"] ∧
    csharp.namespaceName "game..@new" = "game..@new" ∧
    (i.packages.map fun p => csharp.importStatement (csharp.namespaceName p)).Nodup ∧
    csharp.identifier "event" ≠ csharp.identifier "events" := by
  obtain ⟨hpackages, -, himports, -, hnames⟩ := names_spelled_safely .standard .deferConstructions
  have hi : Declaration.imports stage (stage.declarations.get ⟨2, by decide⟩) =
      .ok ⟨["game..new", "game.event"]⟩ := by decide +kernel
  have hunmarked : ∀ p ∈ ["game..new", "game.event"], ∀ s ∈ segments p, Unmarked s := by decide +kernel
  have hagain := (hpackages "game..new").2.2
  have hspelled : csharp.namespaceName "game..new" = "game..@new" := by decide +kernel
  rw [hspelled] at hagain
  refine ⟨_, List.get_mem _ _, _, hi, rfl, by decide +kernel, hagain, himports _ _ _ hi hunmarked, ?_⟩
  intro h
  have heq := hnames (by decide : Unmarked "event") (by decide : Unmarked "events") h
  exact absurd heq (by decide)

end CSharp

end Dialect

end Stencil
